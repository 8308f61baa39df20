import Dossier.Document
import Dossier.Proofs.Arranging
import Dossier.Proofs.JsonText
import Dossier.Proofs.Rebuilding

/-!
# Parsing what was serialized

What is built of a document is legible if its types are tame and nothing is lost in
writing (`Context.build_readable`), so the text that it is serialized to is parsed as
the same entity, unless the text nests deeper than the reader goes
(`Document.parseAs_output`).
-/

namespace Dossier

/-- Whether values of the kind hold no entities. -/
def FieldKind.isLeaf : FieldKind → Bool
  | .leaf _ => true
  | _ => false

theorem FieldKind.eq_leaf {kind : FieldKind} (h : kind.isLeaf = true) :
    ∃ leaf, kind = .leaf leaf := by
  cases kind with
  | leaf leaf => exact ⟨leaf, rfl⟩
  | _ => cases h

/-- Nothing about a type gets in the way of reading its entities again: the types that are looked up
under a tag do not declare the key of the tag, embedded types declare no key of a record, and
defaults are for leaves only. -/
structure EntityType.Tame (ctx : Context) (t : EntityType) : Prop where
  picked : ∀ f ∈ t.fields, ∀ name, f.kind = .polymorphic name →
    ∀ registry, ctx.registry name = .ok registry → ∀ tag type, registry.get? tag = some type →
      (ctx.typeOf type).field? registry.key = none
  embedded : ∀ f ∈ t.fields, ∀ type, f.kind = .related type →
    ∀ key ∈ [idrefKey, relationshipKey], (ctx.typeOf type).field? key = none ∧
      ∀ tag, (ctx.typeOf type).separateTag? = some tag → tag.key ≠ key
  defaulted : ∀ f ∈ t.fields, f.default?.isSome → ∃ kind, f.kind = .leaf kind

/-- Nothing that a field stores is lost in writing, if it comes of a document. -/
def Field.isLossless (f : Field) : Bool :=
  match f.kind with
  | .leaf .float | .leaf .timestamp => false
  | .leaf .dictionary => f.default?.isNone
  | _ => true

def EntityType.isLossless (t : EntityType) : Bool := t.fields.all (·.isLossless)

/-- The type of an entity is tame, nothing of its values is lost in writing, and the deferred defaults
of what it has unset have nothing to give. -/
structure Entity.Clear (ctx : Context) (e : Entity) : Prop where
  tame : (e.type ctx.schema).Tame ctx
  written : (e.type ctx.schema).isLossless = true ∨ Mapping.All Value.Written e.values
  undeferred : e.Unprompted ctx (·.isDeferred = true)

/-! ## What becomes of a mapping -/

/-- What can be told of the mapping that an entity was built of. -/
structure Entity.Follows (ctx : Context) (type : TypeKey) (supplied : Mapping) (e : Entity) :
    Prop where
  typeKey : e.typeKey = type
  /-- Texts that are not declared are written as they were supplied. -/
  reading : ∀ key s, (ctx.typeOf type).field? key = none →
    supplied.get? key = some (.string s) → Table.get? (e.reading ctx) key = some (.string s)
  extras : ∀ entry ∈ e.extras, entry ∈ supplied
  keys : ∀ key ∈ Table.keys supplied, key ∈ Table.keys (e.reading ctx)

theorem Entity.Follows.nonempty {ctx : Context} {type : TypeKey} {supplied : Mapping} {e : Entity}
    (h : e.Follows ctx type supplied) (some : supplied ≠ []) : e.reading ctx ≠ [] := by
  obtain ⟨entry, member⟩ := List.exists_mem_of_ne_nil supplied some
  intro nothing
  have there := h.keys entry.1 (List.mem_map_of_mem member)
  rw [nothing] at there
  exact absurd there List.not_mem_nil

/-- A value that came of a mapping, with what told its type there. -/
def FieldKind.Derived (ctx : Context) : FieldKind → Value → Prop
  | entity type, .entity e => e.typeKey = type
  | polymorphic name, .entity e => ∃ registry supplied, ctx.registry name = .ok registry ∧
    registry.pick supplied = .ok e.typeKey ∧ e.Follows ctx e.typeKey supplied
  | related type, .related r => ∀ e, r.embedded? = some e → ∃ supplied : Mapping,
    supplied ≠ [] ∧ (∀ key ∈ [idrefKey, relationshipKey], key ∉ Table.keys supplied) ∧
      e.Follows ctx type supplied
  | _, _ => True

def Field.Derived (ctx : Context) (f : Field) (value : Value) : Prop :=
  ∀ item ∈ if f.isMultiple then itemsOf value else [value], f.kind.Derived ctx item

/-- A builder whose entities follow the plain mappings that they are built of, and have a property. -/
def Builder.Derives (ctx : Context) (Q : Entity → Prop) (build : Builder) : Prop :=
  ∀ type m, (Value.mapping m).Plain → (build type m).Ensures fun e => e.Follows ctx type m ∧ Q e

theorem Value.Plain.erase {m : Mapping} (h : (Value.mapping m).Plain) (key : String) :
    (Value.mapping (Table.erase m key)).Plain := by
  cases h with
  | mapping distinct each =>
    refine .mapping (distinct.sublist (List.filter_sublist.map _)) fun entry member => ?_
    exact each entry (Table.mem_of_mem_erase member)

section Coercion

variable {ctx : Context} {Q : Entity → Prop} {build : Builder} {owner : EntityType} {f : Field}

theorem RelatedObject.ofRecord_derived (derives : build.Derives ctx Q) (type : TypeKey)
    {record : Mapping} (plain : (Value.mapping record).Plain) (shown : Presentation) :
    (ofRecord build type record shown).Ensures fun r =>
      (FieldKind.related type).Derived ctx (.related r) ∧ ∀ e, r.embedded? = some e → Q e := by
  have payload : (Value.mapping (payloadOf record)).Plain := (plain.erase _).erase _
  have apart : ∀ key ∈ [idrefKey, relationshipKey], key ∉ Table.keys (payloadOf record) := by
    intro key reserved
    rw [← Table.get?_eq_none_iff, payloadOf, Table.get?_erase, Table.get?_erase]
    simp only [List.mem_cons, List.not_mem_nil, or_false] at reserved
    rcases reserved with rfl | rfl
    · rfl
    · rw [if_neg (by decide)]
      rfl
  -- the two ways of being inline come to the same build
  have embedded : ∀ relationship, payloadOf record ≠ [] → (do
      return inline (← build type (payloadOf record)) relationship : Build RelatedObject).Ensures
        fun r => (FieldKind.related type).Derived ctx (.related r) ∧
          ∀ e, r.embedded? = some e → Q e := by
    intro relationship some
    refine (derives type _ payload).bind ?_
    rintro e ⟨follows, made⟩
    refine .pure ⟨?_, ?_⟩
    · rintro d ⟨⟩
      exact ⟨_, some, apart, follows⟩
    · rintro d ⟨⟩
      exact made
  unfold ofRecord
  refine .after fun relationship => .after fun idref? => ?_
  cases idref? with
  | none =>
    dsimp only
    split
    · exact .fail _
    · next some => exact embedded relationship some
  | some idref =>
    dsimp only
    split
    · refine .pure ⟨?_, ?_⟩ <;> rintro e ⟨⟩
    · next other => exact embedded relationship fun nothing => other (.inl nothing)

namespace Field

theorem coerceKind_derived (derives : build.Derives ctx Q) (segment : String) {raw : Value}
    (plain : raw.Plain) :
    (f.coerceKind ctx build owner segment raw).Ensures fun value =>
      value.Proper Q ∧ f.kind.Derived ctx value := by
  unfold coerceKind
  cases f.kind with
  | leaf kind =>
    dsimp only
    cases coerced : kind.coerce raw with
    | ok value =>
      exact .pure ⟨LeafKind.carries_of_coerce (Value.carries_proper Q) coerced plain.proper, trivial⟩
    | error reason => exact .fail _
  | entity type =>
    cases raw with
    | mapping entries =>
      refine .map (.within _ ((derives type entries plain).mono ?_))
      rintro e ⟨follows, made⟩
      exact ⟨.entity made, follows.typeKey⟩
    | entity e => cases plain
    | _ => exact .fail _
  | polymorphic name =>
    simp only [coercePolymorphic]
    refine .bind (.ofExcept fun registry found => found) fun registry found => ?_
    cases raw with
    | mapping entries =>
      refine .within _ (.bind (.ofExcept fun type picked => picked) fun type picked => ?_)
      refine (derives type entries plain).bind ?_
      rintro e ⟨follows, made⟩
      obtain rfl := follows.typeKey
      exact .pure ⟨.entity made, registry, entries, found, picked, follows⟩
    | entity e => cases plain
    | _ => exact .fail _
  | related type =>
    cases raw with
    | mapping entries =>
      refine .map (.within _ ((RelatedObject.ofRecord_derived derives type plain _).mono ?_))
      rintro r ⟨derived, made⟩
      exact ⟨.related made, derived⟩
    | related r => cases plain
    | entity e => cases plain
    | _ => exact .fail _

theorem coerceSingle_derived (derives : build.Derives ctx Q) (segment : String) {raw : Value}
    (plain : raw.Plain) :
    (f.coerceSingle ctx build owner segment raw).Ensures fun value =>
      value.Proper Q ∧ f.kind.Derived ctx value := by
  refine (coerceKind_derived derives segment plain).bind fun value derived => ?_
  cases f.validate value with
  | ok => exact .pure derived
  | error reason => exact .fail _

theorem coerceItems_derived (derives : build.Derives ctx Q) (index : Nat) {items : List Value}
    (plain : ∀ item ∈ items, item.Plain) :
    (f.coerceItems ctx build owner index items).Ensures fun values =>
      ∀ value ∈ values, value.Proper Q ∧ f.kind.Derived ctx value := by
  induction items generalizing index with
  | nil => exact .pure (List.forall_mem_nil _)
  | cons item items ih =>
    rw [coerceItems]
    refine (coerceSingle_derived derives _ (plain item List.mem_cons_self)).bind ?_
    intro value derived
    refine (ih (index + 1) fun other later => plain other (List.mem_cons_of_mem _ later)).bind ?_
    intro values each
    exact .pure (List.forall_mem_cons.2 ⟨derived, each⟩)

/-- What comes of a plain value is derived from it, and has a property inside if the builder makes
only what has. -/
theorem coerce_derived (derives : build.Derives ctx Q) {raw : Value} (plain : raw.Plain) :
    (f.coerce ctx build owner raw).Ensures fun value => value.Proper Q ∧ f.Derived ctx value := by
  have each : ∀ item ∈ itemsOf raw, item.Plain := by
    cases plain with
    | list each => exact each
    | _ =>
      intro item member
      obtain rfl := List.mem_singleton.1 member
      constructor <;> assumption
  unfold coerce Derived
  cases f.isMultiple with
  | true =>
    rw [if_pos rfl]
    split
    · exact .fail _
    · refine .map ((coerceItems_derived derives 0 each).mono fun values derived => ?_)
      exact ⟨.list fun value member => (derived value member).1, fun value member =>
        (derived value member).2⟩
  | false =>
    refine (coerceSingle_derived derives f.name plain).mono fun value ⟨proper, derived⟩ => ?_
    exact ⟨proper, fun item member => List.mem_singleton.1 member ▸ derived⟩

end Field

end Coercion

/-! ## Construction from plain mappings -/

section Construction

variable {ctx : Context} {Q : Entity → Prop} {builders : Builders} {supplied : Mapping}

/-- A trial that set its field did so by a default, or to what is derived from what was supplied. -/
def Trial.Derived (ctx : Context) (Q : Entity → Prop) (trial : Trial) : Prop :=
  ∀ value, trial.outcome = .ok (some value) →
    trial.field.default?.isSome ∨ value.Proper Q ∧ trial.field.Derived ctx value

namespace EntityType

variable {t : EntityType}

/-- By induction on the fields, each of which is filled with what was supplied under its name. -/
theorem trials_derived (derives : builders.supplied.Derives ctx Q)
    (plain : (Value.mapping supplied).Plain) (fields : List Field) (assigned : Mapping)
    (store : Store) :
    ∀ trial ∈ (t.trials ctx builders supplied fields assigned store).list,
      trial.Derived ctx Q := by
  induction fields generalizing assigned store with
  | nil => exact List.forall_mem_nil _
  | cons f fields ih =>
    -- what is set was supplied, and so is plain, or came of a default
    have fill : ∀ value calls after, f.fill ctx builders t assigned (supplied.get? f.name) store =
        (.ok (some value, calls), after) →
          f.default?.isSome ∨ value.Proper Q ∧ f.Derived ctx value := by
      intro value calls after run
      cases given : supplied.get? f.name with
      | some raw =>
        have each : raw.Plain := by
          cases plain with
          | mapping _ each => exact each _ (Table.mem_of_get? given)
        have derived : (f.fill ctx builders t assigned (some raw)).Ensures fun value? =>
            ∀ value, value? = some value → value.Proper Q ∧ f.Derived ctx value :=
          .map ((Field.coerce_derived derives each).mono fun value derived other same =>
            Option.some.inj same ▸ derived)
        rw [given] at run
        exact .inr (derived _ _ _ _ run value rfl)
      | none =>
        rw [given] at run
        cases default : f.default? with
        | some default => exact .inl rfl
        | none =>
          simp only [Field.fill, default] at run
          rw [Build.pure_run] at run
          exact absurd (Prod.mk.inj run).1 (by simp)
    intro trial member
    rw [trials] at member
    split at member
    · rcases List.mem_cons.1 member with rfl | among
      · rintro value ⟨⟩
      · exact ih _ _ trial among
    · rcases List.mem_cons.1 member with rfl | among
      · rintro value ⟨⟩
      · exact ih _ _ trial among
    · next run =>
      rcases List.mem_cons.1 member with rfl | among
      · rintro other ⟨⟩
        exact fill _ _ _ run
      · exact ih _ _ trial among

/-- A field for which something was supplied is set. -/
theorem trials_set {fields : List Field} {assigned : Mapping} {store : Store} :
    ∀ trial ∈ (t.trials ctx builders supplied fields assigned store).list,
      (supplied.get? trial.field.name).isSome → trial.outcome ≠ .ok none := by
  induction fields generalizing assigned store with
  | nil => exact List.forall_mem_nil _
  | cons f fields ih =>
    intro trial member given
    rw [trials] at member
    split at member
    · rcases List.mem_cons.1 member with rfl | among
      · simp
      · exact ih trial among given
    · next run =>
      rcases List.mem_cons.1 member with rfl | among
      · obtain ⟨raw, there⟩ := Option.isSome_iff_exists.1 given
        rw [there] at run
        exact absurd run Field.fill_supplied_ne
      · exact ih trial among given
    · rcases List.mem_cons.1 member with rfl | among
      · simp
      · exact ih trial among given

variable {type : TypeKey} {store after : Store} {e : Entity} {calls : List HookCall}

/-- A declared field for which something was supplied has a value. -/
theorem construct_set
    (run : construct ctx builders type supplied store = (.ok (e, calls), after)) {key : String}
    {f : Field} (declared : (ctx.typeOf type).field? key = some f)
    (given : key ∈ Table.keys supplied) : key ∈ Table.keys e.values := by
  obtain ⟨quiet, rfl, -⟩ := construct_ok run
  have fields := trials_fields ctx builders (ctx.typeOf type) supplied (ctx.typeOf type).fields []
    store
  simp only [complaints, List.append_eq_nil_iff] at quiet
  obtain ⟨⟨⟨-, noErrors⟩, -⟩, -⟩ := quiet
  obtain ⟨there, rfl⟩ := mem_of_field? declared
  rw [← fields] at there
  obtain ⟨trial, tried, rfl⟩ := List.mem_map.1 there
  obtain ⟨held, accepted⟩ := Trials.accepted_of_errors noErrors tried
  have found := Trials.get?_values (Trials.nodup_names fields) tried accepted
  have held? := trials_set trial tried (Table.isSome_get?_iff.2 given)
  apply Table.isSome_get?_iff.1
  rw [complete, Trials.values, found]
  cases held with
  | none => exact absurd accepted held?
  | some value => rfl

/-- Whatever was supplied is read off the canonical form, under the same key. -/
theorem construct_keys
    (run : construct ctx builders type supplied store = (.ok (e, calls), after)) {key : String}
    (given : key ∈ Table.keys supplied) : key ∈ Table.keys (e.reading ctx) := by
  have typeKey : ctx.typeOf type = e.type ctx.schema := by
    obtain ⟨-, rfl, -⟩ := construct_ok run
    rfl
  rw [Entity.keys_reading, List.mem_append, List.mem_append]
  cases declared : (ctx.typeOf type).field? key with
  | some f => exact .inr (.inl (construct_set run declared given))
  | none =>
    by_cases tagged : ∃ tag, (ctx.typeOf type).separateTag? = some tag ∧ tag.key = key
    · obtain ⟨tag, found, rfl⟩ := tagged
      left
      rw [← typeKey, tagEntry, found]
      exact List.mem_singleton_self _
    · have kept := construct_extra run declared fun tag found same => tagged ⟨tag, found, same⟩
      rw [← Table.isSome_get?_iff, ← kept] at given
      exact .inr (.inr (Table.isSome_get?_iff.1 given))

/-- What is stored comes of a default, or is derived from what was supplied. -/
theorem construct_derived (derives : builders.supplied.Derives ctx Q)
    (plain : (Value.mapping supplied).Plain)
    (run : construct ctx builders type supplied store = (.ok (e, calls), after)) {f : Field}
    (declared : f ∈ (ctx.typeOf type).fields) {value : Value}
    (stored : Table.get? e.values f.name = some value) :
    f.default?.isSome ∨ value.Proper Q ∧ f.Derived ctx value := by
  obtain ⟨-, rfl, -⟩ := construct_ok run
  obtain ⟨trial, tried, accepted, same⟩ := Trials.exists_of_mem_values (Table.mem_of_get? stored)
  have there : trial.field ∈ (ctx.typeOf type).fields := by
    rw [← trials_fields ctx builders (ctx.typeOf type) supplied (ctx.typeOf type).fields [] store]
    exact List.mem_map_of_mem tried
  -- the trial is that of the field, since names are distinct
  have found := field?_of_mem there
  rw [same, field?_of_mem declared] at found
  rw [Option.some.inj found]
  exact trials_derived derives plain _ _ _ trial tried value accepted

theorem construct_follows
    (run : construct ctx builders type supplied store = (.ok (e, calls), after)) :
    e.Follows ctx type supplied where
  typeKey := by
    obtain ⟨-, rfl, -⟩ := construct_ok run
    rfl
  reading _ _ undeclared given := construct_reading run undeclared given
  extras := construct_extras run
  keys _ := construct_keys run

end EntityType

end Construction

/-! ## Readable entities -/

/-- There are no entities in what a leaf holds, if nothing of it is lost in writing. -/
theorem LeafKind.Holds.proper {kind : LeafKind} {value : Value} (shape : kind.Holds value)
    (written : value.Written) (Q : Entity → Prop) : value.Proper Q := by
  cases written with
  | bool b => exact .bool b
  | integer i => exact .integer i
  | number x => exact .number _
  | string s => exact .string s
  | timestamp _ => exact .timestamp _
  | mapping plain => exact plain.proper
  | _ => cases kind <;> exact absurd shape id

/-- There are no entities in what a field of leaves stores, if nothing of it is lost in writing. -/
theorem Field.Stores.proper {ctx : Context} {f : Field} {value : Value} (stores : f.Stores ctx value)
    {kind : LeafKind} (leaf : f.kind = .leaf kind) (written : value.Written)
    (Q : Entity → Prop) : value.Proper Q ∧ f.Recognises ctx value := by
  have each : ∀ item : Value, f.Takes ctx item → item.Written → item.Proper Q := by
    intro item takes written
    have shape := takes.1
    rw [leaf] at shape
    exact LeafKind.Holds.proper shape written Q
  refine ⟨?_, fun item _ => ?_⟩
  · cases multiple : f.isMultiple with
    | false => exact each value ((stores_single multiple).1 stores) written
    | true =>
      obtain ⟨items, rfl, -, takes⟩ := (stores_multiple multiple).1 stores
      cases written with
      | list writtenEach =>
        exact .list fun item member => each item (takes item member) (writtenEach item member)
  · rw [leaf]
    trivial

/-- What a lossless field stores is written in full, if a dictionary is not from a default. -/
theorem Field.Stores.written_of_lossless {ctx : Context} {f : Field} {value : Value}
    (stores : f.Stores ctx value) (lossless : f.isLossless = true) {Q : Entity → Prop}
    (origin : f.default?.isSome ∨ value.Proper Q) : value.Written := by
  unfold isLossless at lossless
  refine stores.written (Q := Q) ?_ ?_ ?_
  · intro kind
    rw [kind] at lossless
    cases lossless
  · intro kind
    rw [kind] at lossless
    cases lossless
  · intro kind
    rw [kind] at lossless
    refine origin.resolve_left fun defaulted => ?_
    rw [Option.isNone_iff_eq_none.1 lossless] at defaulted
    cases defaulted

namespace Entity

variable {ctx : Context} {e : Entity}

/-- What an entity is that was built of a document: legible, if it and all that are inside are
clear. -/
def Readable (ctx : Context) (e : Entity) : Prop := e.Throughout (·.Clear ctx) → e.Legible ctx

/-- The types of the entities inside are found again if they are told by what was supplied. -/
theorem recognises_of_derived (tame : (e.type ctx.schema).Tame ctx) {f : Field}
    (declared : f ∈ (e.type ctx.schema).fields) {value : Value} (derived : f.kind.Derived ctx value)
    (inside : value.Each (·.Legible ctx)) : f.kind.Recognises ctx value := by
  cases kind : f.kind with
  | leaf leaf => trivial
  | entity type =>
    rw [kind] at derived
    cases value <;> exact derived
  | polymorphic name =>
    rw [kind] at derived
    cases value with
    | entity d =>
      obtain ⟨registry, supplied, found, picked, follows⟩ := derived
      obtain ⟨tag, given, known⟩ := Registry.pick_eq_ok.1 picked
      obtain ⟨raw, there, text⟩ := Option.bind_eq_some_iff.1 given
      cases raw with
      | string s =>
        obtain rfl : s = tag := Option.some.inj text
        -- the tag was not taken by a field, so it is written again as it was supplied
        have undeclared := tame.picked f declared name kind registry found s d.typeKey known
        refine ⟨registry, found, Registry.pick_eq_ok.2 ⟨s, ?_, known⟩⟩
        rw [follows.reading registry.key s undeclared there]
        rfl
      | _ => cases text
    | _ => trivial
  | related type =>
    rw [kind] at derived
    cases value with
    | related r =>
      intro d held
      obtain ⟨supplied, some, absent, follows⟩ := derived d held
      have legible := Value.each_related.1 inside d held
      have rebuilds : d.Rebuilds (fun _ => True) ctx :=
        legible.rebuilds (legible.mono fun _ _ _ _ _ _ => trivial)
      obtain ⟨arranged, -⟩ := legible.holds
      obtain rfl := follows.typeKey
      refine ⟨rfl, arranged.laid.recordable rebuilds.read (follows.nonempty some) ?_⟩
      -- a key of the record can only have come as a custom property, which were supplied without it
      intro key reserved
      obtain ⟨undeclared, untagged⟩ := tame.embedded f declared _ kind key reserved
      refine ⟨undeclared, untagged, fun member => absent key reserved ?_⟩
      obtain ⟨entry, there, same⟩ := List.mem_map.1 member
      exact List.mem_map.2 ⟨entry, follows.extras entry there, same⟩
    | _ => trivial

end Entity

/-- A property of values and entities that is no property at all. -/
theorem Value.carries_any : Value.Carries (fun _ => True) fun _ => True := by
  constructor <;> simp [Mapping.All]

theorem Default.offers_any (default : Default) : default.Offers ctx fun _ => True := by
  cases default <;> simp [Offers]

namespace Entity

variable {ctx : Context} {e : Entity} {Q : Entity → Prop}

/-- What is stored comes of a default, or is derived from a document whose entities have a
property. -/
def Originates (ctx : Context) (Q : Entity → Prop) (e : Entity) : Prop :=
  ∀ f ∈ (e.type ctx.schema).fields, ∀ value, Table.get? e.values f.name = some value →
    f.default?.isSome ∨ value.Proper Q ∧ f.Derived ctx value

/-- A clear entity is written in full. -/
theorem Clear.written_values (clear : e.Clear ctx) (laid : e.Laid ctx)
    (origin : e.Originates ctx Q) : Mapping.All Value.Written e.values := by
  refine clear.written.elim (fun lossless entry member => ?_) id
  obtain ⟨f, declared, -, stored⟩ := laid.exists_field member
  refine (laid.stores declared stored).written_of_lossless ?_
    ((origin f declared _ stored).imp_right And.left)
  exact List.all_eq_true.1 lossless f declared

theorem Clear.proper (clear : e.Clear ctx) (laid : e.Laid ctx) (origin : e.Originates ctx Q) :
    Mapping.All (·.Proper Q) e.values := by
  intro entry member
  obtain ⟨f, declared, -, stored⟩ := laid.exists_field member
  rcases origin f declared _ stored with defaulted | ⟨proper, -⟩
  · obtain ⟨kind, leaf⟩ := clear.tame.defaulted f declared defaulted
    have written := clear.written_values laid origin entry member
    exact ((laid.stores declared stored).proper leaf written Q).1
  · exact proper

theorem Clear.recognises (clear : e.Clear ctx) (laid : e.Laid ctx) (origin : e.Originates ctx Q)
    (legible : ∀ d ∈ e.nested, d.Legible ctx) {f : Field}
    (declared : f ∈ (e.type ctx.schema).fields) {value : Value}
    (stored : Table.get? e.values f.name = some value) : f.Recognises ctx value := by
  rcases origin f declared value stored with defaulted | ⟨-, derived⟩
  · obtain ⟨kind, leaf⟩ := clear.tame.defaulted f declared defaulted
    have written := (clear.written_values laid origin).get? stored
    exact ((laid.stores declared stored).proper leaf written Q).2
  · have each := (forall_nested.1 legible).1.get? stored
    intro item member
    refine recognises_of_derived clear.tame declared (derived item member) ?_
    split at member
    · cases value with
      | list items => exact Value.each_list.1 each item member
      | _ => exact List.mem_singleton.1 member ▸ each
    · exact List.mem_singleton.1 member ▸ each

end Entity

/-- **Construction makes readable entities of plain mappings**, if its builders do. -/
theorem EntityType.construct_readable {ctx : Context} {builders : Builders}
    (named : builders.supplied.Makes (fun _ => True) (fun _ => True) fun _ => True)
    (namedDefaulted : builders.defaulted.Makes (fun _ => True) (fun _ => True) fun _ => True)
    (derives : builders.supplied.Derives ctx (Entity.Readable ctx)) {type : TypeKey}
    {supplied : Mapping} (plain : (Value.mapping supplied).Plain) :
    (construct ctx builders type supplied).Ensures (Entity.Readable ctx) := by
  intro store e calls after run clear
  obtain ⟨keys, plainEach⟩ : Table.Distinct supplied ∧ Mapping.All Value.Plain supplied := by
    cases plain with
    | mapping distinct each => exact ⟨distinct, each⟩
  obtain ⟨same, fits, -⟩ := construct_fits Value.carries_any.conveys named namedDefaulted
    (fun f _ => f.asks_any ctx) (fun _ _ default _ => default.offers_any) (fun _ _ => trivial)
    _ _ _ _ run
  have arranged := construct_arranged run fits keys
  have plainExtras : Mapping.All Value.Plain e.extras :=
    fun entry member => plainEach entry (construct_extras run entry member)
  have origin : e.Originates ctx (Entity.Readable ctx) := by
    subst same
    exact fun f declared value => construct_derived derives plain run declared
  -- what is inside was built by the same builder, of plain mappings too
  have readable : ∀ d ∈ e.nested, d.Readable ctx :=
    Entity.forall_nested.2 ⟨(clear.holds.proper arranged.laid origin).mono fun _ => Value.Proper.each,
      plainExtras.mono fun _ => Value.Plain.each⟩
  have legible : ∀ d ∈ e.nested, d.Legible ctx :=
    fun d member => readable d member (clear.of_nested member)
  have explicit : e.Explicit ctx := {
    written := clear.holds.written_values arranged.laid origin
    plain := plainExtras
    recognised := fun f declared value => clear.holds.recognises arranged.laid origin legible declared
    undeferred := clear.holds.undeferred }
  exact .intro ⟨arranged, explicit⟩ legible

/-- What is built of a plain mapping is readable. -/
theorem Context.build_readable (ctx : Context) (type : TypeKey) {supplied : Mapping}
    (plain : (Value.mapping supplied).Plain) :
    (ctx.build type supplied).Ensures fun e => e.typeKey = type ∧ e.Readable ctx := by
  refine (build_induction (P := fun type m x => x.Ensures (·.typeKey = type) ∧
    ((Value.mapping m).Plain → x.Ensures fun e => e.Follows ctx type m ∧ e.Readable ctx))
    (fun _ _ => ⟨.fail _, fun _ => .fail _⟩) ?_ type supplied).2 plain |>.mono
      fun _ ⟨follows, readable⟩ => ⟨follows.typeKey, readable⟩
  intro builders bySupplied byDefaulted type m
  have named : builders.supplied.Makes (fun _ => True) (fun _ => True) fun _ => True :=
    fun type _ m _ => (bySupplied type m).1.mono fun _ same => ⟨same, trivial⟩
  have namedDefaulted : builders.defaulted.Makes (fun _ => True) (fun _ => True) fun _ => True :=
    fun type _ m _ => (byDefaulted type m).1.mono fun _ same => ⟨same, trivial⟩
  have follows : (EntityType.construct ctx builders type m).Ensures (·.Follows ctx type m) :=
    fun _ _ _ _ run => EntityType.construct_follows run
  refine ⟨follows.mono fun _ => Entity.Follows.typeKey, fun plain => follows.and ?_⟩
  exact EntityType.construct_readable named namedDefaulted (fun type m => (bySupplied type m).2)
    plain

/-! ## The round trip of texts -/

namespace Document

variable {ctx : Context} {indent : Nat}

theorem toMapping_text (codec : ctx.codec = .json indent) (encoded : String) :
    (text encoded).toMapping ctx =
      (Json.parse? encoded).elim (.error .malformedText) toMapping.ofJson := by
  rw [toMapping, codec, Codec.json]
  dsimp only
  cases Json.parse? encoded <;> rfl

theorem serialize_json (codec : ctx.codec = .json indent) (e : Entity) (pretty : Bool) :
    ∃ layout : Json.Layout, layout.Blanks ∧
      ctx.serialize e pretty = .ok ((e.toJson ctx.schema).render layout) := by
  rw [Context.serialize, codec]
  cases pretty with
  | true => exact ⟨_, Json.Layout.blanks_pretty indent, rfl⟩
  | false => exact ⟨_, Json.Layout.blanks_compact, rfl⟩

/-- What is parsed of a text has a property, with the name of its type, if whatever is built of a
plain mapping has it. -/
theorem parseAs_ensures (codec : ctx.codec = .json indent) {typeName : String} {Q : Entity → Prop}
    (built : ∀ type, ctx.typeNamed typeName = .ok type → ∀ m, (Value.mapping m).Plain →
      (ctx.build type m).Ensures Q) (encoded : String) :
    ((text encoded).parseAs ctx typeName).Ensures Q := by
  unfold parseAs
  refine .except_bind fun type named => .except_bind fun properties decoded => ?_
  rw [toMapping_text codec] at decoded
  cases read : Json.parse? encoded with
  | none =>
    rw [read] at decoded
    cases decoded
  | some json =>
    rw [read, Option.elim] at decoded
    unfold toMapping.ofJson at decoded
    split at decoded
    · cases decoded
      apply Action.Ensures.finish
      exact built type named _ (Value.plain_ofJson (Json.keysDistinct_of_parse? read))
    · cases decoded

/-- **A type accepts its own output.** What has been parsed of a text, and is written in full, is
serialized to a text that is parsed as the same entity, or that is refused for nesting too deep. -/
theorem parseAs_output (codec : ctx.codec = .json indent) {typeName encoded : String}
    {store after : Store} {e : Entity}
    (run : ((text encoded).parseAs ctx typeName).run.run store = (.ok e, after))
    (clear : e.Throughout (·.Clear ctx)) (stable : (e.toJson ctx.schema).Stable) (pretty : Bool) :
    e.same ctx.schema e = true ∧ ∃ serialized, ctx.serialize e pretty = .ok serialized ∧
      ∀ later,
        ((e.toJson ctx.schema).nesting ≤ Json.maxDepth → ∃ last,
          ((text serialized).parseAs ctx typeName).run.run later = (.ok e, last)) ∧
        (Json.maxDepth < (e.toJson ctx.schema).nesting →
          ((text serialized).parseAs ctx typeName).run.run later =
            (.error .malformedText, later)) := by
  have built : ((text encoded).parseAs ctx typeName).Ensures fun e =>
      ctx.typeNamed typeName = .ok e.typeKey ∧ e.Readable ctx := by
    refine parseAs_ensures codec (fun type named m plain => ?_) encoded
    refine (ctx.build_readable type plain).mono ?_
    rintro e ⟨rfl, readable⟩
    exact ⟨named, readable⟩
  obtain ⟨named, readable⟩ := built _ _ _ run
  have legible := readable clear
  have rebuilds : e.Rebuilds (fun _ => True) ctx :=
    legible.rebuilds (legible.mono fun _ _ _ _ _ _ => trivial)
  obtain ⟨layout, blanks, serialized⟩ := serialize_json codec e pretty
  refine ⟨rebuilds.distinct.same_self, _, serialized, fun later => ?_⟩
  -- what is written is read as the canonical form, if it is not too deep
  rw [parseAs, named, toMapping_text codec, Json.parse?_render blanks rebuilds.distinct stable]
  refine ⟨fun shallow => ?_, fun deep => ?_⟩
  · obtain ⟨calls, back, -⟩ := rebuilds.back later
    have properties : toMapping.ofJson (e.toJson ctx.schema) = .ok (e.reading ctx) :=
      congrArg Except.ok rebuilds.read
    rw [if_pos shallow, Option.elim, properties]
    exact ⟨_, Build.finish_run_ok back⟩
  · rw [if_neg (Nat.not_le.2 deep)]
    rfl

end Document

end Dossier
