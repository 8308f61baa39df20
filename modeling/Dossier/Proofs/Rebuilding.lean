import Dossier.Proofs.Legible
import Dossier.Proofs.Settled
import Dossier.Proofs.Timestamps

/-!
# Building from canonical forms

A settled entity is built again from its canonical form as it was, and nothing
is drawn for it, if the timestamps in it have years of four digits
(`Entity.Settled.rebuilds`). Each kind of field inverts what it is written as,
by induction on how entities are nested.
-/

namespace Dossier

/-- A timestamp is stored in a value, at any depth. -/
inductive Value.Mentions (t : Timestamp) : Value → Prop where
  | timestamp : Mentions t (.timestamp t)
  | item {items : List Value} {item : Value} (member : item ∈ items) (inside : Mentions t item) :
    Mentions t (.list items)
  | entry {entries : List (String × Value)} {entry : String × Value} (member : entry ∈ entries)
    (inside : Mentions t entry.2) : Mentions t (.mapping entries)
  | property {e : Entity} {entry : String × Value} (member : entry ∈ e.values ++ e.extras)
    (inside : Mentions t entry.2) : Mentions t (.entity e)
  | related {r : RelatedObject} {e : Entity} (held : r.embedded? = some e)
    (inside : Mentions t (.entity e)) : Mentions t (.related r)

/-- All timestamps that are stored have a year from 0 to 9999. -/
def Value.Dated (value : Value) : Prop :=
  ∀ t, value.Mentions t → 0 ≤ t.date.year ∧ t.date.year ≤ 9999

def Entity.Dated (e : Entity) : Prop := (Value.entity e).Dated

namespace Value

/-! A value is dated if what is in it is. -/

@[simp] theorem dated_string (s : String) : (string s).Dated := by
  intro t mentions
  cases mentions

@[simp] theorem dated_list {items : List Value} :
    (list items).Dated ↔ ∀ item ∈ items, item.Dated := by
  constructor
  · intro h item member t inside
    exact h t (.item member inside)
  · intro each t mentions
    cases mentions with
    | item member inside => exact each _ member t inside

@[simp] theorem dated_related {r : RelatedObject} :
    (related r).Dated ↔ ∀ e, r.embedded? = some e → e.Dated := by
  constructor
  · intro h e held t inside
    exact h t (.related held inside)
  · intro each t mentions
    cases mentions with
    | related held inside => exact each _ held t inside

end Value

theorem Entity.dated_iff {e : Entity} :
    e.Dated ↔ ∀ entry ∈ e.values ++ e.extras, entry.2.Dated := by
  constructor
  · intro h entry member t inside
    exact h t (.property member inside)
  · intro each t mentions
    cases mentions with
    | property member inside => exact each _ member t inside

theorem Entity.Dated.value {e : Entity} (h : e.Dated) {name : String} {value : Value}
    (member : (name, value) ∈ e.values) : value.Dated :=
  dated_iff.1 h _ (List.mem_append_left _ member)

/-- The entities in a dated value are dated. -/
theorem Value.Proper.dated {Q : Entity → Prop} {value : Value} (h : value.Proper Q)
    (dated : value.Dated) : value.Each Entity.Dated := by
  induction h with
  | list _ ih =>
    rw [each_list]
    intro item member
    exact ih item member (dated_list.1 dated item member)
  | mapping plain => exact plain.each
  | entity _ => exact each_entity.2 dated
  | related _ => exact each_related.2 (dated_related.1 dated)
  | _ => exact List.forall_mem_nil _

/-- A leaf is coerced back from what it is written as. -/
theorem LeafKind.coerce_toJson {kind : LeafKind} {value : Value} (shape : kind.Holds value)
    (written : value.Written) (schema : Schema) :
    (value.toJson schema).isNull = false ∧ (value.toJson schema).KeysDistinct ∧
      kind.coerce (Value.ofJson (value.toJson schema)) = .ok value := by
  cases written with
  | bool b => cases kind <;> first | exact ⟨rfl, .bool b, rfl⟩ | exact absurd shape id
  | integer i =>
    have back : Value.ofJson ((Value.integer i).toJson schema) = .integer i := Value.ofJson_ofInt64 i
    cases kind <;> first | exact ⟨rfl, .number _, by rw [back]; rfl⟩ | exact absurd shape id
  | number x => cases kind <;> first | exact ⟨rfl, .number _, rfl⟩ | exact absurd shape id
  | string s =>
    refine ⟨rfl, .string s, ?_⟩
    cases kind with
    | string => rfl
    | identifier allowed =>
      -- the text is read as the identifier that it is the text of
      obtain ⟨id, parsed, named⟩ := shape
      have some : (Value.string s).string?.bind Identifier.parse? = some id := parsed
      have fits : ¬(allowed ≠ [] ∧ id.typeName ∉ allowed) := fun ⟨listed, other⟩ =>
        other (named listed)
      show coerceIdentifier allowed (.string s) = _
      simp only [coerceIdentifier, some, if_neg fits, Identifier.text_of_parse? parsed]
    | _ => exact absurd shape id
  | @timestamp t dated =>
    refine ⟨rfl, .string _, ?_⟩
    cases kind with
    | timestamp =>
      show coerceTimestamp (.string t.text) = _
      simp only [coerceTimestamp, Timestamp.parse?_text t dated]
    | _ => exact absurd shape id
  | mapping plain =>
    obtain ⟨present, distinct, back⟩ := plain.restored schema
    cases kind with
    | dictionary => exact ⟨present, distinct, by rw [back]; rfl⟩
    | _ => exact absurd shape id
  | _ => cases kind <;> exact absurd shape id

/-- A value that a coercion gives of what it is read as after it was written. -/
structure Value.ReadBy (H : Hook → Prop) (schema : Schema) (read : Value → Build Value)
    (value : Value) : Prop where
  present : (value.toJson schema).isNull = false
  distinct : (value.toJson schema).KeysDistinct
  back : (read (ofJson (value.toJson schema))).Gives H value

/-! ## Construction -/

namespace Trials

/-- Trials that accepted every field, with a value each or none. -/
def accepting (held : Field → Option Value) (fields : List Field) (calls : List HookCall)
    (store : Store) : Trials where
  list := fields.map fun f => ⟨f, .ok (held f)⟩
  calls := calls
  store := store

variable (held : Field → Option Value) (fields : List Field) (calls : List HookCall)
  (store : Store)

theorem values_accepting : (accepting held fields calls store).values =
    fields.filterMap fun f => (held f).map (f.name, ·) := by
  rw [values, accepting, List.filterMap_map]
  apply List.filterMap_congr
  intro f _
  show Trial.value? ⟨f, .ok (held f)⟩ = _
  cases held f <;> rfl

theorem errors_accepting : (accepting held fields calls store).errors = [] := by
  rw [errors, accepting, List.filterMap_map, List.filterMap_eq_nil_iff]
  intro f _
  rfl

end Trials

namespace EntityType

variable {H : Hook → Prop} {ctx : Context} {builders : Builders} {t : EntityType}
  {supplied : Mapping}

/-- By induction on the fields: if filling each gives a value after those before it, that is what
the trials come to. -/
theorem trials_give (held : Field → Option Value) {fields : List Field} {assigned : Mapping}
    (fill : ∀ before f after, fields = before ++ f :: after →
      (f.fill ctx builders t
        (assigned ++ before.filterMap fun g => (held g).map (g.name, ·))
        (supplied.get? f.name)).Gives H (held f)) (store : Store) :
    ∃ calls, t.trials ctx builders supplied fields assigned store =
        .accepting held fields calls store ∧
      ∀ call ∈ calls, H call.hook := by
  induction fields generalizing assigned store with
  | nil => exact ⟨[], rfl, List.forall_mem_nil _⟩
  | cons f fields ih =>
    have first := fill [] f fields rfl
    rw [List.filterMap_nil, List.append_nil] at first
    obtain ⟨calls, run, among⟩ := first store
    -- a value that was given is assigned when the later fields are filled
    cases gave : held f with
    | none =>
      obtain ⟨more, later, amongMore⟩ := @ih assigned (fun before g after split => by
        simpa [gave] using fill (f :: before) g after (by rw [split, List.cons_append])) store
      refine ⟨calls ++ more, ?_, List.forall_mem_append.2 ⟨among, amongMore⟩⟩
      simp only [trials, run, gave, later, Trials.accepting, List.map_cons]
    | some value =>
      obtain ⟨more, later, amongMore⟩ := @ih (assigned ++ [(f.name, value)])
        (fun before g after split => by
          simpa [gave] using fill (f :: before) g after (by rw [split, List.cons_append])) store
      refine ⟨calls ++ more, ?_, List.forall_mem_append.2 ⟨among, amongMore⟩⟩
      simp only [trials, run, gave, later, Trials.accepting, List.map_cons]

theorem hook_of_mem_hookCalls (hooks : ∀ f ∈ t.fields, ∀ hook, f.hook = some hook → H hook)
    (e : Entity) : ∀ call ∈ t.hookCalls e, H call.hook := by
  intro call member
  obtain ⟨f, declared, left⟩ := List.mem_filterMap.1 member
  cases hooked : f.hook with
  | none => simp [hooked] at left
  | some hook =>
    simp only [hooked] at left
    split at left
    · rw [← Option.some.inj left]
      exact hooks f declared hook hooked
    · exact absurd left (by simp)

section Reading

variable {e : Entity}

theorem tagErrors_reading : (e.type ctx.schema).tagErrors (e.reading ctx) = [] := by
  unfold tagErrors
  cases found : (e.type ctx.schema).separateTag? with
  | none => rfl
  | some tag =>
    dsimp only
    rw [Entity.get?_reading_tag found]
    exact if_pos rfl

theorem offered_reading (h : e.Laid ctx) {f : Field} (declared : f ∈ (e.type ctx.schema).fields)
    (required : f.isRequired = true) : (Table.get? (e.reading ctx) f.name).isSome := by
  rw [h.get?_reading declared, Option.isSome_map]
  exact h.fits.required f declared required

/-- What is read under other names than those of fields and of the tag are the custom properties. -/
theorem undeclared_reading (h : e.Laid ctx) (plain : Mapping.All Value.Plain e.extras) :
    (e.type ctx.schema).undeclared (e.reading ctx) = e.extras := by
  have tag : ((e.type ctx.schema).tagEntry Value.string).filter
      (fun entry => (e.type ctx.schema).isCustom entry.1) = [] := by
    rw [List.filter_eq_nil_iff]
    intro entry member
    obtain ⟨tag, found, rfl⟩ := mem_tagEntry member
    simp [isCustom_iff, found]
  have back : e.extras.map (fun entry => (entry.1, Value.ofJson (entry.2.toJson ctx.schema))) =
      e.extras := by
    have same : ∀ entry ∈ e.extras,
        (entry.1, Value.ofJson (entry.2.toJson ctx.schema)) = entry := by
      intro entry member
      exact Prod.ext rfl ((plain entry member).restored ctx.schema).back
    rw [List.map_congr_left same, List.map_id']
  show (e.reading ctx).filter (fun entry => (e.type ctx.schema).isCustom entry.1) = _
  rw [Entity.reading, List.filter_append, tag, List.nil_append, List.filter_map]
  show ((e.type ctx.schema).undeclared (e.values ++ e.extras)).map _ = _
  rw [h.fits.undeclared_append h.untagged, back]

/-- There is nothing to complain of in what an entity is read as that is laid out. -/
theorem complaints_reading (h : e.Laid ctx) (plain : Mapping.All Value.Plain e.extras)
    {trials : Trials} (noErrors : trials.errors = []) :
    (e.type ctx.schema).complaints ctx (e.reading ctx) trials = [] := by
  rw [h.fits.complaints_eq tagErrors_reading (fun f => offered_reading h)
    (undeclared_reading h plain), noErrors]

/-- Fields that give back what the entity holds complete the entity. -/
theorem complete_reading (h : e.Laid ctx) (plain : Mapping.All Value.Plain e.extras)
    (calls : List HookCall) (store : Store) :
    complete ctx e.typeKey (e.reading ctx) (.accepting (Table.get? e.values ·.name)
      (e.type ctx.schema).fields calls store) = e := by
  have values : (e.type ctx.schema).fields.filterMap
      (fun f => (Table.get? e.values f.name).map (f.name, ·)) = e.values := h.ordered
  have extras : (if ctx.keepsExtras (ctx.typeOf e.typeKey) then
      (ctx.typeOf e.typeKey).undeclared (e.reading ctx) else []) = e.extras := by
    show (if ctx.keepsExtras (e.type ctx.schema) then
      (e.type ctx.schema).undeclared (e.reading ctx) else []) = _
    rw [undeclared_reading h plain]
    exact h.fits.keeps_extras
  rw [complete, Trials.values_accepting, values, extras]
  cases e
  rfl

/-- Construction gives an entity of what it was read as, if each field gives back its value. -/
theorem construct_gives (arranged : e.Arranged ctx)
    (undeferred : e.Unprompted ctx (·.isDeferred = true)) (plain : Mapping.All Value.Plain e.extras)
    (hooks : ∀ f ∈ (e.type ctx.schema).fields, ∀ hook, f.hook = some hook → H hook)
    (back : ∀ f ∈ (e.type ctx.schema).fields, ∀ value, Table.get? e.values f.name = some value →
      (f.coerce ctx builders.supplied (e.type ctx.schema)
        (Value.ofJson (value.toJson ctx.schema))).Gives H value) :
    (construct ctx builders e.typeKey (e.reading ctx)).Gives H e := by
  have h := arranged.laid
  have fill : ∀ before f after, (e.type ctx.schema).fields = before ++ f :: after →
      (f.fill ctx builders (e.type ctx.schema) ([] ++ e.held before)
        (Table.get? (e.reading ctx) f.name)).Gives H (Table.get? e.values f.name) := by
    intro before f after split
    have declared : f ∈ (e.type ctx.schema).fields := by simp [split]
    rw [h.get?_reading declared, List.nil_append]
    cases stored : Table.get? e.values f.name with
    | some value => exact (back f declared value stored).map some
    | none =>
      -- nothing is supplied to the field, and its default has nothing to give either
      show (f.fill ctx builders _ (e.held before) none).Gives H none
      cases given : f.default? with
      | none =>
        simp only [Field.fill, given]
        exact .pure none
      | some default =>
        have silent :=
          arranged.unprompted undeferred before f after split stored default given trivial
        simp only [Field.fill, given, silent.rawValue, pure_bind]
        exact .pure none
  intro store
  obtain ⟨calls, run, among⟩ := trials_give (Table.get? e.values ·.name) fill store
  have quiet := complaints_reading h plain
    (Trials.errors_accepting (Table.get? e.values ·.name) (e.type ctx.schema).fields calls store)
  refine ⟨calls ++ (e.type ctx.schema).hookCalls e, ?_,
    List.forall_mem_append.2 ⟨among, hook_of_mem_hookCalls hooks e⟩⟩
  have outcome := construct_run ctx builders e.typeKey (e.reading ctx) store
  have type : ctx.typeOf e.typeKey = e.type ctx.schema := rfl
  simp only [type, run, quiet, EntityError.combine, complete_reading h plain] at outcome
  exact outcome

end Reading

end EntityType

/-! ## Coercion of what is read -/

namespace Field

variable {H : Hook → Prop} {ctx : Context} {owner : EntityType} {f : Field}

theorem coerceEntity_readBy (segment : String) {e : Entity} (rebuilds : e.Rebuilds H ctx) :
    (Value.entity e).ReadBy H ctx.schema
      (f.coerceEntity ctx ctx.build owner segment e.typeKey) where
  present := rfl
  distinct := rebuilds.distinct
  back := by
    show (Value.entity <$> (ctx.build e.typeKey
      (Mapping.ofJson (e.canonical ctx.schema))).within segment).Gives H _
    rw [rebuilds.read]
    exact (rebuilds.back.within segment).map _

/-- The registry picks the type of the entity again, by what was written. -/
theorem coercePolymorphic_readBy (segment : String) {name : String} {registry : Registry}
    (found : ctx.registry name = .ok registry) {e : Entity}
    (picked : registry.pick (e.reading ctx) = .ok e.typeKey) (rebuilds : e.Rebuilds H ctx) :
    (Value.entity e).ReadBy H ctx.schema
      (f.coercePolymorphic ctx ctx.build owner segment name) where
  present := rfl
  distinct := rebuilds.distinct
  back := by
    have mapping : Value.ofJson ((Value.entity e).toJson ctx.schema) = .mapping (e.reading ctx) :=
      congrArg Value.mapping rebuilds.read
    rw [mapping, coercePolymorphic, found]
    refine .bind (.pure registry) ?_
    dsimp only
    rw [picked]
    exact .within segment (.bind (.pure e.typeKey) (rebuilds.back.bind (.pure _)))

theorem coerceRelated_readBy (segment : String) {type : TypeKey} {r : RelatedObject}
    (refers : r.Refers ctx.schema (ctx.typeOf type))
    (inside : ∀ e, r.embedded? = some e →
      e.typeKey = type ∧ e.Recordable ctx.schema ∧ e.Rebuilds H ctx) :
    (Value.related r).ReadBy H ctx.schema
      (f.coerceRelated ctx ctx.build owner segment type) where
  present := rfl
  distinct := RelatedObject.keysDistinct_toJson fun e held => (inside e held).2
  back := ((RelatedObject.ofRecord_gives refers inside _).within segment).map _

/-- **Each kind reads back what it takes**, if the entities inside can be built again and their
types are found again. -/
theorem coerceKind_readBy (segment : String) {value : Value} (shape : f.kind.Holds ctx value)
    (written : value.Written) (recognised : f.kind.Recognises ctx value)
    (rebuilds : value.Each (·.Rebuilds H ctx)) :
    value.ReadBy H ctx.schema (f.coerceKind ctx ctx.build owner segment) := by
  unfold coerceKind
  cases kind : f.kind with
  | leaf leaf =>
    rw [kind] at shape
    obtain ⟨present, distinct, back⟩ := LeafKind.coerce_toJson shape written ctx.schema
    refine ⟨present, distinct, ?_⟩
    dsimp only
    rw [back]
    exact .pure value
  | entity type =>
    rw [kind] at shape recognised
    cases value with
    | entity e =>
      obtain rfl : e.typeKey = type := recognised
      exact coerceEntity_readBy segment (Value.each_entity.1 rebuilds)
    | _ => exact absurd shape id
  | polymorphic name =>
    rw [kind] at shape recognised
    cases value with
    | entity e =>
      obtain ⟨registry, found, picked⟩ := recognised
      exact coercePolymorphic_readBy segment found picked (Value.each_entity.1 rebuilds)
    | _ => exact absurd shape id
  | related type =>
    rw [kind] at shape recognised
    cases value with
    | related r =>
      apply coerceRelated_readBy segment shape
      intro e held
      obtain ⟨same, recordable⟩ := recognised e held
      exact ⟨same, recordable, Value.each_related.1 rebuilds e held⟩
    | _ => exact absurd shape id

theorem coerceSingle_readBy (segment : String) {value : Value} (takes : f.Takes ctx value)
    (written : value.Written) (recognised : f.kind.Recognises ctx value)
    (rebuilds : value.Each (·.Rebuilds H ctx)) :
    value.ReadBy H ctx.schema (f.coerceSingle ctx ctx.build owner segment) := by
  obtain ⟨shape, valid⟩ := takes
  obtain ⟨present, distinct, back⟩ := coerceKind_readBy segment shape written recognised rebuilds
  refine ⟨present, distinct, back.bind ?_⟩
  rw [valid]
  exact .pure value

/-- The items of a list are read back one by one, at whatever index they start. -/
theorem coerceItems_gives {schema : Schema} {items : List Value}
    (each : ∀ item ∈ items, ∀ segment,
      item.ReadBy H schema (f.coerceSingle ctx ctx.build owner segment)) (index : Nat) :
    (f.coerceItems ctx ctx.build owner index
      (items.map fun item => Value.ofJson (item.toJson schema))).Gives H items := by
  induction items generalizing index with
  | nil => exact .pure []
  | cons item items ih =>
    have head := (each item List.mem_cons_self (f.itemSegment index)).back
    have later : ∀ other ∈ items, ∀ segment,
        other.ReadBy H schema (f.coerceSingle ctx ctx.build owner segment) := by
      intro other member
      exact each other (List.mem_cons_of_mem _ member)
    have tail := ih later (index + 1)
    rw [List.map_cons, coerceItems]
    exact head.bind (tail.bind (.pure _))

/-- A field reads back what it stores. -/
theorem coerce_readBy {value : Value} (stores : f.Stores ctx value) (written : value.Written)
    (recognised : f.Recognises ctx value) (rebuilds : value.Each (·.Rebuilds H ctx)) :
    value.ReadBy H ctx.schema (f.coerce ctx ctx.build owner) := by
  unfold Recognises at recognised
  cases multiple : f.isMultiple with
  | false =>
    have single : f.coerce ctx ctx.build owner = f.coerceSingle ctx ctx.build owner f.name := by
      funext raw
      rw [coerce, multiple]
      rfl
    have recognised : f.kind.Recognises ctx value := by
      apply recognised
      simp [multiple]
    rw [single]
    exact coerceSingle_readBy f.name ((stores_single multiple).1 stores) written recognised rebuilds
  | true =>
    obtain ⟨items, rfl, some, takes⟩ := (stores_multiple multiple).1 stores
    rw [if_pos multiple] at recognised
    have each : ∀ item ∈ items, ∀ segment,
        item.ReadBy H ctx.schema (f.coerceSingle ctx ctx.build owner segment) := by
      intro item member segment
      cases written with
      | list written =>
        exact coerceSingle_readBy segment (takes item member) (written item member)
          (recognised item member) (Value.each_list.1 rebuilds item member)
    have present : ∀ item ∈ items, (item.toJson ctx.schema).isNull = false := by
      intro item member
      exact (each item member f.name).present
    refine ⟨rfl, ?_, ?_⟩
    · rw [Value.toJson, Value.itemsToJson_eq]
      apply Json.KeysDistinct.array
      intro json member
      obtain ⟨item, inside, rfl⟩ := List.mem_map.1 member
      exact (each item inside f.name).distinct
    · rw [Value.toJson, Value.ofJson, Value.itemsOfJson_toJson present, coerce, if_pos multiple]
      have nonempty : ((itemsOf (.list (items.map fun item =>
          Value.ofJson (item.toJson ctx.schema)))).isEmpty && f.isRequired) = false := by
        cases required : f.isRequired with
        | false => exact Bool.and_false _
        | true => simpa [itemsOf] using some required
      -- a list that is required is not empty, so it is not refused
      rw [nonempty]
      exact (coerceItems_gives each 0).map Value.list

end Field

namespace Entity

variable {H : Hook → Prop} {ctx : Context} {e : Entity}

/-- An entity can be built again if its values are read back. -/
theorem Arranged.rebuilds (h : e.Arranged ctx)
    (undeferred : e.Unprompted ctx (·.isDeferred = true)) (plain : Mapping.All Value.Plain e.extras)
    (hooks : ∀ f ∈ (e.type ctx.schema).fields, ∀ hook, f.hook = some hook → H hook)
    (back : ∀ f ∈ (e.type ctx.schema).fields, ∀ value, Table.get? e.values f.name = some value →
      value.ReadBy H ctx.schema (f.coerce ctx ctx.build (e.type ctx.schema))) :
    e.Rebuilds H ctx := by
  -- nothing that is set is written as null or with a key twice
  have written : ∀ entry ∈ e.values ++ e.extras, (entry.2.toJson ctx.schema).isNull = false ∧
      (entry.2.toJson ctx.schema).KeysDistinct := by
    rintro ⟨name, value⟩ member
    rcases List.mem_append.1 member with stored | custom
    · obtain ⟨f, declared, rfl, -⟩ := h.laid.fits.stored name value stored
      have read := back f declared value (h.laid.distinct_values.get?_of_mem stored)
      exact ⟨read.present, read.distinct⟩
    · have restored := (plain _ custom).restored ctx.schema
      exact ⟨restored.present, restored.distinct⟩
  refine ⟨?_, ?_, ?_⟩
  · apply h.laid.keysDistinct_toJson
    intro entry member
    exact (written entry member).2
  · apply h.laid.ofJson_canonical
    intro entry member
    exact (written entry member).1
  · rw [Context.build_eq]
    apply EntityType.construct_gives h undeferred plain hooks
    intro f declared value stored
    rw [Context.builders_supplied]
    exact (back f declared value stored).back

/-- **Legible entities can be built again.** By induction on how entities are nested. -/
theorem Legible.rebuilds (h : e.Legible ctx)
    (hooks : e.Throughout fun d =>
      ∀ f ∈ (d.type ctx.schema).fields, ∀ hook, f.hook = some hook → H hook) :
    e.Rebuilds H ctx := by
  induction h with
  | @intro e clear _ ih =>
    obtain ⟨arranged, explicit⟩ := clear
    apply arranged.rebuilds explicit.undeferred explicit.plain hooks.holds
    intro f declared value stored
    have rebuilds : value.Each (·.Rebuilds H ctx) := by
      have each : ∀ d ∈ e.nested, d.Rebuilds H ctx := by
        intro d member
        exact ih d member (hooks.of_nested member)
      exact (forall_nested.1 each).1.get? stored
    exact Field.coerce_readBy (arranged.laid.stores declared stored)
      (explicit.written.get? stored) (explicit.recognised f declared value stored) rebuilds

/-- What an entity is read as can be taken for that of an inline record if it holds something, and
nothing under the keys of a record. -/
theorem Laid.recordable (h : e.Laid ctx)
    (read : Mapping.ofJson (e.canonical ctx.schema) = e.reading ctx) (held : e.reading ctx ≠ [])
    (apart : ∀ key ∈ [idrefKey, relationshipKey], (e.type ctx.schema).field? key = none ∧
      (∀ tag, (e.type ctx.schema).separateTag? = some tag → tag.key ≠ key) ∧
        key ∉ Table.keys e.extras) :
    e.Recordable ctx.schema where
  apart := by
    intro key reserved
    obtain ⟨undeclared, untagged, custom⟩ := apart key reserved
    rw [h.keys_canonical, keys_reading, List.mem_append, List.mem_append, not_or, not_or]
    refine ⟨?_, ?_, custom⟩
    · intro member
      obtain ⟨entry, tagged, same⟩ := List.mem_map.1 member
      obtain ⟨tag, found, rfl⟩ := EntityType.mem_tagEntry tagged
      exact untagged tag found same
    · intro member
      obtain ⟨f, declared, rfl⟩ := h.declared member
      rw [EntityType.field?_of_mem declared] at undeclared
      cases undeclared
  nonempty := read ▸ held

end Entity

/-! ## Settled entities -/

/-- Of leaves, only floating numbers, timestamps and dictionaries may lose something in writing. -/
theorem FieldKind.Holds.written {ctx : Context} {kind : FieldKind} {value : Value}
    (shape : kind.Holds ctx value) (exact : kind ≠ .leaf .float)
    (dated : kind = .leaf .timestamp → value.Dated) {Q : Entity → Prop}
    (proper : kind = .leaf .dictionary → value.Proper Q) : value.Written := by
  cases kind with
  | leaf kind =>
    cases kind with
    | float => exact absurd rfl exact
    | timestamp =>
      cases value with
      | timestamp t => exact .timestamp (dated rfl t .timestamp)
      | _ => exact absurd shape id
    | dictionary =>
      cases value with
      | mapping m =>
        -- a dictionary may hold anything, unless it came of a document
        cases proper rfl with
        | mapping plain => exact .mapping plain
      | _ => exact absurd shape id
    | _ =>
      cases value with
      | bool b => exact .bool b
      | integer i => exact .integer i
      | string s => exact .string s
      | _ => exact absurd shape id
  | _ =>
    cases value with
    | entity e => exact .entity e
    | related r => exact .related r
    | _ => exact absurd shape id

/-- What a field stores is written in full if it is not one of floating numbers, its timestamps are
dated and its dictionaries plain. -/
theorem Field.Stores.written {ctx : Context} {f : Field} {value : Value}
    (stores : f.Stores ctx value) (exact : f.kind ≠ .leaf .float)
    (dated : f.kind = .leaf .timestamp → value.Dated) {Q : Entity → Prop}
    (proper : f.kind = .leaf .dictionary → value.Proper Q) : value.Written := by
  cases multiple : f.isMultiple with
  | false =>
    exact FieldKind.Holds.written ((stores_single multiple).1 stores).1 exact dated proper
  | true =>
    obtain ⟨items, rfl, -, takes⟩ := (stores_multiple multiple).1 stores
    refine .list fun item member =>
      FieldKind.Holds.written (Q := Q) (takes item member).1 exact ?_ ?_
    · exact fun kind => Value.dated_list.1 (dated kind) item member
    · intro kind
      cases proper kind with
      | list each => exact each item member

namespace Entity

variable {ctx : Context} {T : TypeKey → Prop} {e : Entity}

/-- A tidy entity has all its fields with defaults set. -/
theorem Tidy.unprompted (h : e.Tidy ctx T) (sort : Default → Prop) : e.Unprompted ctx sort := by
  intro before f after split unset default given _
  have declared : f ∈ (e.type ctx.schema).fields := by simp [split]
  have some := h.filled f declared (by rw [given]; rfl)
  rw [unset] at some
  cases some

theorem Tidy.arranged (h : e.Tidy ctx T) : e.Arranged ctx where
  laid :=
    { fits := h.fits
      ordered := h.ordered
      distinct := by
        rw [h.bare]
        exact List.nodup_nil
      untagged := by
        rw [h.bare]
        exact fun _ _ => List.not_mem_nil }
  silent := h.unprompted _

/-- What an entity of an embeddable type is written as is an inline record. -/
theorem Tidy.recordable (h : e.Tidy ctx T) (embeddable : (e.type ctx.schema).Embeddable)
    (read : Mapping.ofJson (e.canonical ctx.schema) = e.reading ctx) :
    e.Recordable ctx.schema := by
  obtain ⟨f, declared, filled⟩ := embeddable.nonempty
  have set : (Table.get? e.values f.name).isSome := by
    rcases filled with required | defaulted
    · exact h.fits.required f declared required
    · exact h.filled f declared defaulted
  refine h.arranged.laid.recordable read ?_ ?_
  · intro nothing
    obtain ⟨-, nothing⟩ := List.append_eq_nil_iff.1 nothing
    rw [(List.append_eq_nil_iff.1 (List.map_eq_nil_iff.1 nothing)).1] at set
    cases set
  · intro key reserved
    obtain ⟨undeclared, untagged⟩ := embeddable.apart key reserved
    refine ⟨undeclared, untagged, ?_⟩
    rw [h.bare]
    exact List.not_mem_nil

/-- A field of a faithful type recognises what it takes: types are told apart by their names, and
what a registry knows it picks by the tag that is written. -/
theorem recognises_of_takes (faithful : ctx.Faithful T) {t : EntityType} (types : t.Faithful ctx T)
    {f : Field} (declared : f ∈ t.fields) {value : Value} (takes : f.Takes ctx value)
    (inside : value.Each fun d => d.Tidy ctx T ∧
      Mapping.ofJson (d.canonical ctx.schema) = d.reading ctx) :
    f.kind.Recognises ctx value := by
  have shape := takes.1
  have asks := types.asks f declared
  unfold Field.Asks at asks
  cases kind : f.kind with
  | leaf leaf => trivial
  | entity type =>
    rw [kind] at shape asks
    cases value with
    | entity d => exact faithful.apart _ _ (Value.each_entity.1 inside).1.known asks shape
    | _ => exact absurd shape id
  | polymorphic name =>
    rw [kind] at shape asks
    cases value with
    | entity d =>
      obtain ⟨registry, found, knows⟩ := shape
      -- the registry knows the type of the entity, so it picks no other by its tag
      obtain ⟨⟨tag, type⟩, member, alike⟩ := List.any_eq_true.1 knows
      obtain ⟨known, tagged⟩ := types.tagged f declared name kind registry found tag type member
      obtain rfl := faithful.apart _ _ (asks registry found tag type known)
        (Value.each_entity.1 inside).1.known alike
      refine ⟨registry, found, Registry.pick_eq_ok.2 ⟨tag, ?_, known⟩⟩
      rw [get?_reading_tag tagged]
      rfl
    | _ => exact absurd shape id
  | related type =>
    rw [kind] at shape asks
    cases value with
    | related r =>
      intro d held
      obtain ⟨tidy, read⟩ := Value.each_related.1 inside d held
      obtain rfl := faithful.apart _ _ tidy.known asks (RelatedObject.isOf_of_embeds shape.1 held)
      exact ⟨rfl, tidy.recordable (types.embeddable f declared _ kind) read⟩
    | _ => exact absurd shape id

/-- Settled entities are legible. By induction on how entities are nested. -/
theorem Settled.legible (h : e.Settled ctx T) (faithful : ctx.Faithful T) (dated : e.Dated) :
    e.Legible ctx := by
  induction h with
  | @intro e tidy nested ih =>
    have types := faithful.types _ tidy.known
    have datedInside : ∀ entry ∈ e.values, entry.2.Each Entity.Dated := by
      intro entry member
      exact (tidy.proper entry member).dated (dated.value member)
    -- a settled entity has no custom properties, so all that is inside is in its fields
    have legible : ∀ d ∈ e.nested, d.Legible ctx := by
      intro d member
      refine ih d member ?_
      revert d
      refine forall_nested.2 ⟨datedInside, ?_⟩
      rw [tidy.bare]
      exact List.forall_mem_nil _
    -- what is inside is read back as it is, by which its type is found again
    have inside : ∀ d ∈ e.nested, d.Tidy ctx T ∧
        Mapping.ofJson (d.canonical ctx.schema) = d.reading ctx := by
      intro d member
      have rebuilds : d.Rebuilds (fun _ => True) ctx :=
        (legible d member).rebuilds ((legible d member).mono fun _ _ _ _ _ _ => trivial)
      exact ⟨(nested d member).tidy, rebuilds.read⟩
    refine .intro ⟨tidy.arranged, ?_, ?_, ?_, tidy.unprompted _⟩ legible
    · intro entry member
      obtain ⟨f, declared, -, stores⟩ := tidy.fits.stored entry.1 entry.2 member
      exact stores.written (types.exact f declared) (fun _ => dated.value member) fun _ =>
        tidy.proper entry member
    · rw [tidy.bare]
      exact List.forall_mem_nil _
    · intro f declared value stored item member
      have each := (forall_nested.1 inside).1.get? stored
      have stores := tidy.arranged.laid.stores declared stored
      split at member
      · next multiple =>
        obtain ⟨items, rfl, -, takes⟩ := (Field.stores_multiple multiple).1 stores
        exact recognises_of_takes faithful types declared (takes item member)
          (Value.each_list.1 each item member)
      · next single =>
        obtain rfl := List.mem_singleton.1 member
        exact recognises_of_takes faithful types declared
          ((Field.stores_single (by simpa using single)).1 stores) each

/-- **Settled entities can be built again**, with hooks that do nothing but cache. -/
theorem Settled.rebuilds (h : e.Settled ctx T) (faithful : ctx.Faithful T) (dated : e.Dated) :
    e.Rebuilds (· = .cacheEntity) ctx := by
  refine (h.legible faithful dated).rebuilds ?_
  clear dated
  induction h with
  | intro tidy _ ih => exact .intro (faithful.types _ tidy.known).caching ih

end Entity

end Dossier
