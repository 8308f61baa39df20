import Dossier.Proofs.Conformance
import Dossier.Proofs.Identifiers
import Dossier.Proofs.Outcome

/-!
# What construction makes fits

Coercion gives values of the shape that their field stores, and construction
entities that fit: `EntityType.construct_fits`. Both carry a property of values,
whichever it is, from what was supplied, what defaults offer and what the builders
make over to what the entity holds.
-/

namespace Dossier

/-- A property of values that goes with one of entities: scalars have it, lists have it with their
items, and what is an entity has it with that entity. A mapping that has it hands it down. -/
structure Value.Carries (P : Value → Prop) (Q : Entity → Prop) : Prop where
  bool (b : Bool) : P (.bool b)
  integer (i : Int64) : P (.integer i)
  number (x : Binary64) : P (.number x)
  string (s : String) : P (.string s)
  timestamp (t : Timestamp) : P (.timestamp t)
  list {items : List Value} : P (.list items) ↔ ∀ item ∈ items, P item
  entry {m : Mapping} : P (.mapping m) → m.All P
  entity {e : Entity} : P (.entity e) ↔ Q e
  related {r : RelatedObject} : P (.related r) ↔ ∀ e, r.embedded? = some e → Q e

theorem Value.carries_each (Q : Entity → Prop) : Value.Carries (·.Each Q) Q where
  bool _ := List.forall_mem_nil _
  integer _ := List.forall_mem_nil _
  number _ := List.forall_mem_nil _
  string _ := List.forall_mem_nil _
  timestamp _ := List.forall_mem_nil _
  list := each_list
  entry h := each_mapping.1 h
  entity := each_entity
  related := each_related

/-- What a default gives has a property: its constant, or what it computes from values that have
it, or what it answers after such values in whatever store. -/
def Default.Offers (ctx : Context) (P : Value → Prop) : Default → Prop
  | fixed value => P value
  | computed compute => ∀ input value, compute input = some value → input.assigned.All P → P value
  | deferred name => ∀ scope store value, (ctx.defaults name scope store).1 = some value →
    scope.assigned.All P → P value
  | _ => True

/-- A default comes with something that values may have: its constant has it, or what it computes or
answers has it and none of the values that it was given does. -/
def Default.Adds (ctx : Context) (P : Value → Prop) : Default → Prop
  | fixed value => P value
  | computed compute => ∃ input value, compute input = some value ∧ P value ∧
    ∀ entry ∈ input.assigned, ¬P entry.2
  | deferred name => ∃ scope store value, (ctx.defaults name scope store).1 = some value ∧ P value ∧
    ∀ entry ∈ scope.assigned, ¬P entry.2
  | _ => False

/-- For what a default gives to have nothing amiss it is enough that it comes with nothing amiss. -/
theorem Default.offers_of_adds {ι : Type} {P : ι → Value → Prop} {R : ι → Prop} {ctx : Context}
    {default : Default} (added : ∀ i, default.Adds ctx (P i) → R i) :
    default.Offers ctx fun value => ∀ i, P i value → R i := by
  -- a value has it from an earlier field, or it has come with the default
  have either : ∀ (assigned : Mapping), (assigned.All fun value => ∀ i, P i value → R i) →
      ∀ i, ((∀ entry ∈ assigned, ¬P i entry.2) → R i) → R i := by
    intro assigned earlier i new
    by_cases already : ∃ entry ∈ assigned, P i entry.2
    · obtain ⟨entry, member, there⟩ := already
      exact earlier entry member i there
    · apply new
      intro entry member there
      exact already ⟨entry, member, there⟩
  cases default with
  | fixed value => exact added
  | computed compute =>
    intro input value given assigned i inside
    refine either input.assigned assigned i fun new => ?_
    exact added i ⟨input, value, given, inside, new⟩
  | deferred name =>
    intro scope store value given assigned i inside
    refine either scope.assigned assigned i fun new => ?_
    exact added i ⟨scope, store, value, given, inside, new⟩
  | _ => trivial

/-- A builder that, asked for some types, makes entities of the type asked for that have a
property, of mappings whose values have another. -/
def Builder.Makes (T : TypeKey → Prop) (P : Value → Prop) (Q : Entity → Prop) (build : Builder) :
    Prop :=
  ∀ type, T type → ∀ m, Mapping.All P m →
    (build type m).Ensures fun e => e.typeKey = type ∧ Q e

/-- The types that a field has mappings built as are among some. -/
def Field.Asks (ctx : Context) (T : TypeKey → Prop) (f : Field) : Prop :=
  match f.kind with
  | .leaf _ => True
  | .entity type => T type
  | .related type => T type
  | .polymorphic name => ∀ registry, ctx.registry name = .ok registry →
    ∀ tag type, registry.get? tag = some type → T type

theorem EntityType.sameAs_self (t : EntityType) : t.sameAs t = true := by simp [sameAs]

theorem Field.asks_any (ctx : Context) (f : Field) : f.Asks ctx fun _ => True := by
  unfold Asks
  split <;> simp

namespace Registry

variable {registry : Registry} {m : Mapping} {type : TypeKey}

/-- A type is picked under the tag that the mapping holds. -/
theorem pick_eq_ok :
    registry.pick m = .ok type ↔
      ∃ tag, (m.get? registry.key).bind (·.string?) = some tag ∧ registry.get? tag = some type := by
  unfold pick lookup
  cases (m.get? registry.key).bind (·.string?) with
  | none => simp
  | some tag => cases found : registry.get? tag <;> simp [found]

theorem knowsType_of_get? {tag : String} (found : registry.get? tag = some type) (schema : Schema) :
    registry.knowsType schema (schema.typeOf type) = true :=
  List.any_eq_true.2 ⟨_, Table.mem_of_get? found, EntityType.sameAs_self _⟩

end Registry

section Coercion

variable {T : TypeKey → Prop} {P : Value → Prop} {Q : Entity → Prop} {ctx : Context}
  {build : Builder} {owner : EntityType} {f : Field}

/-! ## Coercion -/

/-- What a leaf is coerced to has the shape of its kind. -/
theorem LeafKind.holds_of_coerce {kind : LeafKind} {raw value : Value}
    (h : kind.coerce raw = .ok value) : kind.Holds value := by
  cases kind with
  | string => cases raw <;> cases h <;> trivial
  | boolean =>
    simp only [coerce, coerceBoolean] at h
    split at h
    · cases h; trivial
    · split at h <;> cases h; trivial
    · cases h
  | integer =>
    simp only [coerce, coerceInteger] at h
    split at h
    · cases h; trivial
    · split at h <;> cases h; trivial
    · cases h
  | float =>
    simp only [coerce, coerceNumber] at h
    split at h
    · cases h; trivial
    · cases h; trivial
    · split at h <;> cases h; trivial
    · cases h
  | timestamp =>
    simp only [coerce, coerceTimestamp] at h
    split at h
    · cases h; trivial
    · split at h <;> cases h; trivial
    · cases h
  | identifier allowed =>
    simp only [coerce, coerceIdentifier] at h
    split at h
    · next id read =>
      split at h
      · cases h
      · next fits =>
        cases h
        obtain ⟨s, -, parsed⟩ := Option.bind_eq_some_iff.1 read
        exact ⟨id, Identifier.parse?_text parsed, fun listed =>
          Decidable.byContradiction fun other => fits ⟨listed, other⟩⟩
    · cases h
  | dictionary => cases raw <;> cases h <;> trivial

/-- A leaf is a scalar, or the dictionary that was supplied. -/
theorem LeafKind.carries_of_coerce (carries : Value.Carries P Q) {kind : LeafKind} {raw value : Value}
    (h : kind.coerce raw = .ok value) (holds : P raw) : P value := by
  have shape := holds_of_coerce h
  cases kind with
  | dictionary => cases raw <;> cases h <;> exact holds
  | _ =>
    cases value with
    | bool b => exact carries.bool b
    | integer i => exact carries.integer i
    | number x => exact carries.number x
    | string s => exact carries.string s
    | timestamp t => exact carries.timestamp t
    | _ => exact absurd shape id

/-- A property that goes with one of entities, as a property that is carried over does, except that
scalars may lack it: whatever a leaf is coerced to has it if what was supplied has it, and so do
identifiers that are drawn and times that are read. -/
structure Value.Conveys (P : Value → Prop) (Q : Entity → Prop) : Prop where
  leaf {kind : LeafKind} {raw value : Value} : kind.coerce raw = .ok value → P raw → P value
  identifier (id : Identifier) : P (.string id.text)
  timestamp (t : Timestamp) : P (.timestamp t)
  list {items : List Value} : P (.list items) ↔ ∀ item ∈ items, P item
  entry {m : Mapping} : P (.mapping m) → m.All P
  entity {e : Entity} : P (.entity e) ↔ Q e
  related {r : RelatedObject} : P (.related r) ↔ ∀ e, r.embedded? = some e → Q e

theorem Value.Carries.conveys (carries : Value.Carries P Q) : Value.Conveys P Q where
  leaf := LeafKind.carries_of_coerce carries
  identifier id := carries.string id.text
  timestamp := carries.timestamp
  list := carries.list
  entry := carries.entry
  entity := carries.entity
  related := carries.related

theorem RelatedObject.ofRecord_ensures (ctx : Context) (makes : build.Makes T P Q)
    {type : TypeKey} (asked : T type) {record : Mapping} (holds : record.All P)
    (shown : Presentation) :
    (ofRecord build type record shown).Ensures fun r =>
      r.Refers ctx.schema (ctx.typeOf type) ∧ ∀ e, r.embedded? = some e → e.typeKey = type ∧ Q e := by
  have payload : (payloadOf record).All P := (holds.erase _).erase _
  -- the two ways of being inline come to the same build
  have embedded : ∀ relationship, (do
      return inline (← build type (payloadOf record)) relationship : Build RelatedObject).Ensures
        fun r => r.Refers ctx.schema (ctx.typeOf type) ∧
          ∀ e, r.embedded? = some e → e.typeKey = type ∧ Q e := by
    intro relationship
    refine (makes type asked _ payload).bind ?_
    rintro e ⟨rfl, made⟩
    refine .pure ⟨⟨EntityType.sameAs_self _, ?_⟩, ?_⟩
    · rintro idref ⟨⟩
    · rintro d ⟨⟩
      exact ⟨rfl, made⟩
  unfold ofRecord
  refine .after fun relationship => ?_
  refine .bind (.ofExcept (P := fun idref? =>
    ∀ idref, idref? = some idref → (Identifier.parse? idref).isSome) ?_) ?_
  · intro idref? read
    unfold idrefOf at read
    split at read
    · cases read
      exact fun _ none => absurd none (by simp)
    · split at read
      · next kept =>
        cases read
        rintro idref ⟨⟩
        exact (Option.filter_eq_some_iff.1 kept).2
      · cases read
  · rintro (_ | idref) wellFormed
    · dsimp only
      split
      · exact .fail _
      · exact embedded relationship
    · dsimp only
      split
      · exact .pure ⟨⟨rfl, fun other same => by cases same; exact wellFormed idref rfl⟩,
          fun e held => by cases held⟩
      · exact embedded relationship

namespace Field

theorem coerceKind_ensures (conveys : Value.Conveys P Q) (makes : build.Makes T P Q)
    (asks : f.Asks ctx T) (segment : String) {raw : Value} (holds : P raw) :
    (f.coerceKind ctx build owner segment raw).Ensures fun value =>
      f.kind.Holds ctx value ∧ P value := by
  unfold Asks at asks
  unfold coerceKind
  cases kind : f.kind with
  | leaf leaf =>
    dsimp only
    cases coerced : leaf.coerce raw with
    | ok value =>
      exact .pure ⟨LeafKind.holds_of_coerce coerced,
        conveys.leaf coerced holds⟩
    | error reason => exact .fail _
  | entity type =>
    cases raw with
    | mapping entries =>
      refine .map (.within _ ((makes type (by rwa [kind] at asks) entries
        (conveys.entry holds)).mono ?_))
      rintro e ⟨rfl, made⟩
      exact ⟨EntityType.sameAs_self _, conveys.entity.2 made⟩
    | entity e =>
      simp only [coerceEntity]
      split
      · next fits => exact .pure ⟨fits, holds⟩
      · exact .fail _
    | _ => exact .fail _
  | polymorphic name =>
    simp only [coercePolymorphic]
    refine .bind (.ofExcept fun registry found => found) fun registry found => ?_
    cases raw with
    | mapping entries =>
      refine .within _ (.bind (.ofExcept fun type picked => picked) fun type picked => ?_)
      obtain ⟨tag, -, known⟩ := Registry.pick_eq_ok.1 picked
      have asked : T type := by
        rw [kind] at asks
        exact asks registry found tag type known
      refine (makes type asked entries (conveys.entry holds)).bind ?_
      rintro e ⟨rfl, made⟩
      exact .pure ⟨⟨registry, found, Registry.knowsType_of_get? known _⟩, conveys.entity.2 made⟩
    | entity e =>
      dsimp only
      split
      · next known => exact .pure ⟨⟨registry, found, known⟩, holds⟩
      · exact .fail _
    | _ => exact .fail _
  | related type =>
    cases raw with
    | mapping entries =>
      have asked : T type := by rwa [kind] at asks
      refine .map (.within _ ((RelatedObject.ofRecord_ensures ctx makes asked
        (conveys.entry holds) _).mono ?_))
      rintro r ⟨refers, made⟩
      exact ⟨refers, conveys.related.2 fun e held => (made e held).2⟩
    | related r =>
      -- taken as it is, after its type and its identifier have been looked at
      simp only [coerceRelated]
      split
      · exact .fail _
      · next embeds =>
        split
        · exact .within _ (.fail _)
        · next wellFormed =>
          refine .pure ⟨⟨by simpa using embeds, fun idref held => ?_⟩, holds⟩
          simpa [RelatedObject.idref?, held, Option.isSome_iff_ne_none] using wellFormed
    | entity e =>
      simp only [coerceRelated]
      split
      · next fits =>
        refine .pure ⟨⟨fits, fun idref held => by cases held⟩, conveys.related.2 fun d held => ?_⟩
        cases held
        exact conveys.entity.1 holds
      · exact .fail _
    | _ => exact .fail _

/-- A value that is coerced is one that the field takes. -/
theorem coerceSingle_ensures (conveys : Value.Conveys P Q) (makes : build.Makes T P Q)
    (asks : f.Asks ctx T) (segment : String) {raw : Value} (holds : P raw) :
    (f.coerceSingle ctx build owner segment raw).Ensures fun value =>
      f.Takes ctx value ∧ P value := by
  refine (coerceKind_ensures conveys makes asks segment holds).bind ?_
  rintro value ⟨shape, carried⟩
  cases valid : f.validate value with
  | ok => exact .pure ⟨⟨shape, valid⟩, carried⟩
  | error reason => exact .fail _

theorem coerceItems_ensures (conveys : Value.Conveys P Q) (makes : build.Makes T P Q)
    (asks : f.Asks ctx T) (index : Nat) {items : List Value} (holds : ∀ item ∈ items, P item) :
    (f.coerceItems ctx build owner index items).Ensures fun values =>
      values.length = items.length ∧ ∀ value ∈ values, f.Takes ctx value ∧ P value := by
  induction items generalizing index with
  | nil => exact .pure ⟨rfl, List.forall_mem_nil _⟩
  | cons item items ih =>
    rw [coerceItems]
    refine (coerceSingle_ensures conveys makes asks _ (holds item List.mem_cons_self)).bind ?_
    intro value takes
    refine (ih (index + 1) fun other later => holds other (List.mem_cons_of_mem _ later)).bind ?_
    rintro values ⟨same, takesEach⟩
    refine .pure ⟨congrArg (· + 1) same, fun other member => ?_⟩
    rcases List.mem_cons.1 member with rfl | later
    · exact takes
    · exact takesEach other later

/-- What comes of coercion is what the field stores. -/
theorem coerce_ensures (conveys : Value.Conveys P Q) (makes : build.Makes T P Q)
    (asks : f.Asks ctx T) {raw : Value} (holds : P raw) :
    (f.coerce ctx build owner raw).Ensures fun value => f.Stores ctx value ∧ P value := by
  have holdsEach : ∀ item ∈ itemsOf raw, P item := by
    cases raw with
    | list items => exact conveys.list.1 holds
    | _ => intro item member; exact List.mem_singleton.1 member ▸ holds
  unfold coerce
  cases multiple : f.isMultiple with
  | true =>
    rw [if_pos rfl]
    split
    · exact .fail _
    · next nonempty =>
      -- there are as many values as items, so a required list stays nonempty
      refine .map ((coerceItems_ensures conveys makes asks 0 holdsEach).mono ?_)
      rintro values ⟨same, takes⟩
      refine ⟨(stores_multiple multiple).2 ⟨values, rfl, ?_, fun value member =>
        (takes value member).1⟩, conveys.list.2 fun value member => (takes value member).2⟩
      rintro required rfl
      rw [required, Bool.and_true, List.isEmpty_iff] at nonempty
      exact nonempty (List.eq_nil_of_length_eq_zero same.symm)
  | false =>
    exact (coerceSingle_ensures conveys makes asks f.name holds).mono fun value ⟨takes, carried⟩ =>
      ⟨(stores_single multiple).2 takes, carried⟩

end Field

end Coercion

/-! ## Construction -/

section Construction

variable {T : TypeKey → Prop} {P : Value → Prop} {Q : Entity → Prop} {ctx : Context}
  {builders : Builders} {owner : EntityType} {f : Field}

theorem Default.rawValue_ensures (conveys : Value.Conveys P Q) {default : Default}
    (offers : default.Offers ctx P) {assigned : Mapping} (holds : assigned.All P) :
    (default.rawValue ctx owner assigned).Ensures fun raw? => ∀ raw, raw? = some raw → P raw := by
  cases default with
  | fixed value =>
    refine .pure ?_
    rintro raw ⟨⟩
    exact offers
  | generateId =>
    refine .after fun id => .pure ?_
    rintro raw ⟨⟩
    exact conveys.identifier id
  | now =>
    refine .after fun time => .pure ?_
    rintro raw ⟨⟩
    exact conveys.timestamp time
  | sameAs field => exact .pure fun raw found => holds.get? found
  | computed compute => exact .pure fun raw computed => offers _ raw computed holds
  | deferred name => exact .ask fun store raw given => offers _ store raw given holds

/-- What a field is filled with is what it stores, and there is something if something was
supplied. -/
theorem Field.fill_ensures (conveys : Value.Conveys P Q) (supplied : builders.supplied.Makes T P Q)
    (defaulted : builders.defaulted.Makes T P Q) (asks : f.Asks ctx T)
    (offers : ∀ default, f.default? = some default → default.Offers ctx P) {assigned : Mapping}
    (assignedAll : assigned.All P) {raw? : Option Value} (rawHolds : ∀ raw, raw? = some raw → P raw) :
    (f.fill ctx builders owner assigned raw?).Ensures fun value? =>
      (∀ value, value? = some value → f.Stores ctx value ∧ P value) ∧
        (raw?.isSome → value?.isSome) := by
  cases raw? with
  | some raw =>
    refine .map
      ((coerce_ensures conveys supplied asks (rawHolds raw rfl)).mono fun value stores => ?_)
    exact ⟨fun _ same => Option.some.inj same ▸ stores, fun _ => rfl⟩
  | none =>
    unfold fill
    cases given : f.default? with
    | none => exact .pure ⟨fun _ same => absurd same (by simp), fun same => absurd same (by simp)⟩
    | some default =>
      refine (Default.rawValue_ensures conveys (offers default given) assignedAll).bind ?_
      rintro (_ | raw) rawHolds
      · exact .pure ⟨fun _ same => absurd same (by simp), fun same => absurd same (by simp)⟩
      · refine .map ((coerce_ensures conveys defaulted asks (rawHolds raw rfl)).mono
          fun value stores => ?_)
        exact ⟨fun _ same => Option.some.inj same ▸ stores, fun same => absurd same (by simp)⟩

/-- A trial that accepted its field came to what the field stores, and to something if something
was supplied. -/
def Trial.Fits (ctx : Context) (P : Value → Prop) (supplied : Mapping) (trial : Trial) : Prop :=
  ∀ held, trial.outcome = .ok held →
    (∀ value, held = some value → trial.field.Stores ctx value ∧ P value) ∧
      ((supplied.get? trial.field.name).isSome → held.isSome)

namespace EntityType

variable {t : EntityType} {supplied : Mapping}

/-- By induction on the fields: the values of the earlier ones have the property too. -/
theorem trials_fit (conveys : Value.Conveys P Q) (makes : builders.supplied.Makes T P Q)
    (defaulted : builders.defaulted.Makes T P Q) (holds : supplied.All P) (fields : List Field)
    (asks : ∀ f ∈ fields, f.Asks ctx T)
    (offers : ∀ f ∈ fields, ∀ default, f.default? = some default → default.Offers ctx P)
    {assigned : Mapping} (assignedAll : assigned.All P) (store : Store) :
    ∀ trial ∈ (t.trials ctx builders supplied fields assigned store).list,
      trial.Fits ctx P supplied := by
  induction fields generalizing assigned store with
  | nil => exact List.forall_mem_nil _
  | cons f fields ih =>
    have fill : (f.fill ctx builders t assigned (supplied.get? f.name)).Ensures _ :=
      Field.fill_ensures conveys makes defaulted (asks f List.mem_cons_self)
        (offers f List.mem_cons_self) assignedAll fun raw found => holds.get? found
    have later := fun {assigned : Mapping} (assignedAll : assigned.All P) =>
      ih (fun g member => asks g (List.mem_cons_of_mem _ member))
        (fun g member => offers g (List.mem_cons_of_mem _ member)) assignedAll
    intro trial member
    rw [trials] at member
    split at member
    · rcases List.mem_cons.1 member with rfl | among
      · exact fun held accepted => absurd accepted (by simp)
      · exact later assignedAll _ trial among
    · next run =>
      rcases List.mem_cons.1 member with rfl | among
      · rintro held ⟨⟩
        exact fill _ _ _ _ run
      · exact later assignedAll _ trial among
    · next value calls after run =>
      rcases List.mem_cons.1 member with rfl | among
      · rintro held ⟨⟩
        exact fill _ _ _ _ run
      · -- the later fields see this value among those assigned
        refine later (fun entry there => ?_) _ trial among
        rcases List.mem_append.1 there with before | last
        · exact assignedAll entry before
        · rw [List.mem_singleton.1 last]
          exact ((fill _ _ _ _ run).1 value rfl).2

/-- The entity of trials that nothing was wrong with fits. -/
theorem complete_fits {type : TypeKey} {trials : Trials}
    (fields : trials.list.map (·.field) = (ctx.typeOf type).fields)
    (fit : ∀ trial ∈ trials.list, trial.Fits ctx P supplied)
    (quiet : (ctx.typeOf type).complaints ctx supplied trials = []) :
    (complete ctx type supplied trials).Fits ctx := by
  simp only [complaints, List.append_eq_nil_iff] at quiet
  obtain ⟨⟨⟨-, noErrors⟩, noneMissing⟩, -⟩ := quiet
  have names := Trials.nodup_names fields
  -- nothing is missing, so a required field was supplied with something, and took it
  have some : ∀ f ∈ (ctx.typeOf type).fields, f.isRequired →
      (Table.get? trials.values f.name).isSome := by
    intro f declared required
    obtain ⟨trial, tried, rfl⟩ := List.mem_map.1 (fields ▸ declared)
    obtain ⟨held, accepted⟩ := Trials.accepted_of_errors noErrors tried
    rw [Trials.values, Trials.get?_values names tried accepted]
    exact (fit trial tried held accepted).2 (supplied_of_missingErrors noneMissing declared required)
  have extra : ∀ name value, (name, value) ∈ (complete ctx type supplied trials).extras →
      ctx.keepsExtras (ctx.typeOf type) = true ∧ (ctx.typeOf type).field? name = none := by
    intro name value member
    simp only [complete] at member
    split at member
    · next keeps => exact ⟨keeps, (mem_undeclared member).2⟩
    · exact absurd member List.not_mem_nil
  refine ⟨some, ?_, fun name value member => (extra name value member).2, fun kept => ?_⟩
  · intro name value member
    obtain ⟨trial, tried, accepted, rfl⟩ := Trials.exists_of_mem_values member
    refine ⟨trial.field, ?_, rfl, ((fit trial tried _ accepted).1 value rfl).1⟩
    exact fields ▸ List.mem_map_of_mem tried
  · obtain ⟨⟨name, value⟩, member⟩ := List.exists_mem_of_ne_nil _ kept
    exact (extra name value member).1

/-- **Construction makes entities that fit.** Whatever property is carried over that what was
supplied has, what the defaults offer and what the builders make, what the entity holds has. -/
theorem construct_fits (conveys : Value.Conveys P Q) (makes : builders.supplied.Makes T P Q)
    (defaulted : builders.defaulted.Makes T P Q) {type : TypeKey}
    (asks : ∀ f ∈ (ctx.typeOf type).fields, f.Asks ctx T)
    (offers : ∀ f ∈ (ctx.typeOf type).fields, ∀ default, f.default? = some default →
      default.Offers ctx P) (holds : supplied.All P) :
    (construct ctx builders type supplied).Ensures fun e =>
      e.typeKey = type ∧ e.Fits ctx ∧ Mapping.All P e.values ∧ Mapping.All P e.extras := by
  intro store e calls after run
  obtain ⟨quiet, rfl, -⟩ := construct_ok run
  have fit : ∀ trial ∈ ((ctx.typeOf type).trials ctx builders supplied (ctx.typeOf type).fields []
      store).list, trial.Fits ctx P supplied :=
    trials_fit conveys makes defaulted holds _ asks offers
      (List.forall_mem_nil _) store
  refine ⟨rfl, complete_fits (trials_fields ..) fit quiet, ?_, ?_⟩
  · rintro ⟨name, value⟩ member
    obtain ⟨trial, tried, accepted, -⟩ := Trials.exists_of_mem_values member
    exact ((fit trial tried _ accepted).1 value rfl).2
  · -- custom properties were supplied as they are
    intro entry member
    simp only [complete] at member
    split at member
    · exact holds entry (mem_undeclared member).1
    · exact absurd member List.not_mem_nil

end EntityType

/-- **Building carries properties over.** What some types have built is of those types, and has what
follows from its fitting and from what its values have. -/
theorem Context.build_carries (conveys : Value.Conveys P Q)
    (asks : ∀ type, T type → ∀ f ∈ (ctx.typeOf type).fields, f.Asks ctx T)
    (offers : ∀ type, T type → ∀ f ∈ (ctx.typeOf type).fields, ∀ default,
      f.default? = some default → default.Offers ctx P)
    (made : ∀ e : Entity, T e.typeKey → e.Fits ctx → Mapping.All P e.values →
      Mapping.All P e.extras → Q e) : ctx.build.Makes T P Q := by
  intro type known supplied holds
  refine build_induction (P := fun type m x => T type → m.All P →
    x.Ensures fun e => e.typeKey = type ∧ Q e) (fun _ _ _ _ => .fail _) ?_ type supplied known holds
  intro builders bySupplied byDefaulted type m known holds
  refine (EntityType.construct_fits conveys (fun type known m => bySupplied type m known)
    (fun type known m => byDefaulted type m known) (asks type known) (offers type known)
    holds).mono ?_
  rintro e ⟨rfl, fits, values, extras⟩
  exact ⟨rfl, made e known fits values extras⟩

/-- Setting a field puts in what the field stores. -/
theorem Entity.setField_ensures (conveys : Value.Conveys P Q) (makes : ctx.build.Makes T P Q)
    {e : Entity} (asks : f.Asks ctx T) {value : Value} (holds : P value) :
    (e.setField ctx f value).Ensures fun changed => ∃ held, f.Stores ctx held ∧ P held ∧
      changed = { e with values := Table.insert e.values f.name held } := by
  unfold setField
  refine (Field.coerce_ensures conveys makes asks holds).bind ?_
  rintro held ⟨stores, carried⟩
  cases f.hook with
  | none => exact .pure ⟨held, stores, carried, rfl⟩
  | some hook =>
    refine .after fun _ => ?_
    exact .pure ⟨held, stores, carried, rfl⟩

end Construction

namespace Entity.Fits

variable {ctx : Context} {e : Entity}

/-- What is stored under the name of a field is what that field stores. -/
theorem stores (h : e.Fits ctx) {f : Field} (declared : f ∈ (e.type ctx.schema).fields)
    {value : Value} (held : Table.get? e.values f.name = some value) : f.Stores ctx value := by
  obtain ⟨g, also, named, stored⟩ := h.stored f.name value (Table.mem_of_get? held)
  rwa [EntityType.eq_of_name_eq also declared named] at stored

/-- Custom properties are what is left when the fields have taken theirs. -/
theorem undeclared_append (h : e.Fits ctx)
    (untagged : ∀ tag, (e.type ctx.schema).separateTag? = some tag →
      tag.key ∉ Table.keys e.extras) :
    (e.type ctx.schema).undeclared (e.values ++ e.extras) = e.extras := by
  have stored : e.values.filter (fun entry => (e.type ctx.schema).isCustom entry.1) = [] := by
    rw [List.filter_eq_nil_iff]
    rintro ⟨name, value⟩ member
    obtain ⟨f, declared, rfl, -⟩ := h.stored name value member
    simp [EntityType.isCustom_of_mem declared]
  have custom : e.extras.filter (fun entry => (e.type ctx.schema).isCustom entry.1) = e.extras := by
    rw [List.filter_eq_self]
    rintro ⟨name, value⟩ member
    refine EntityType.isCustom_iff.2 ⟨h.apart name value member, fun tag found same => ?_⟩
    exact untagged tag found (same ▸ List.mem_map_of_mem member)
  show (e.values ++ e.extras).filter (fun entry => (e.type ctx.schema).isCustom entry.1) = _
  rw [List.filter_append, stored, custom, List.nil_append]

theorem expected (h : e.Fits ctx) :
    ctx.keepsExtras (e.type ctx.schema) = true ∨ e.extras = [] := by
  by_cases bare : e.extras = []
  · exact .inr bare
  · exact .inl (h.kept bare)

/-- What is dropped where custom properties are not kept is nothing. -/
theorem keeps_extras (h : e.Fits ctx) :
    (if ctx.keepsExtras (e.type ctx.schema) then e.extras else []) = e.extras := by
  split
  · rfl
  · next closed => exact (h.expected.resolve_left closed).symm

/-- Only rejected fields are complained of where nothing is wrong with the tag, something was
supplied for every required field, and the custom properties are those of an entity that fits. -/
theorem complaints_eq (h : e.Fits ctx) {m : Mapping}
    (tagged : (e.type ctx.schema).tagErrors m = [])
    (offered : ∀ f ∈ (e.type ctx.schema).fields, f.isRequired → (Table.get? m f.name).isSome)
    (extras : (e.type ctx.schema).undeclared m = e.extras) (trials : Trials) :
    (e.type ctx.schema).complaints ctx m trials = trials.errors := by
  rw [EntityType.complaints, tagged, EntityType.missingErrors, EntityType.missingOf_eq_nil offered,
    EntityType.unexpectedErrors, extras, if_pos h.expected]
  simp

end Entity.Fits

end Dossier
