import Mathlib.Data.List.Basic
import Dossier.Proofs.Defaults
import Dossier.Proofs.Plain

/-!
# Settled entities

A settled entity is one that its canonical form tells all about: it fits, has no
custom properties, holds its values in the order of declaration with every
default filled in, has only plain dictionaries, and so do the entities inside.
Building a document makes settled entities of types that are faithful
(`Context.build_settled`).
-/

namespace Dossier

/-- A value in which the mappings are plain and the entities have a property. -/
inductive Value.Proper (Q : Entity → Prop) : Value → Prop where
  | bool (b : Bool) : Proper Q (.bool b)
  | integer (i : Int64) : Proper Q (.integer i)
  | number (x : Binary64) : Proper Q (.number x)
  | string (s : String) : Proper Q (.string s)
  | timestamp (t : Timestamp) : Proper Q (.timestamp t)
  | list {items : List Value} (each : ∀ item ∈ items, Proper Q item) : Proper Q (.list items)
  | mapping {m : Mapping} (plain : (Value.mapping m).Plain) : Proper Q (.mapping m)
  | entity {e : Entity} (holds : Q e) : Proper Q (.entity e)
  | related {r : RelatedObject} (holds : ∀ e, r.embedded? = some e → Q e) : Proper Q (.related r)

namespace Value

variable {Q : Entity → Prop}

theorem Plain.proper {value : Value} (h : value.Plain) : value.Proper Q := by
  induction h with
  | bool b => exact .bool b
  | integer i => exact .integer i
  | number x => exact .number _
  | string s => exact .string s
  | list _ ih => exact .list ih
  | mapping distinct each _ => exact .mapping (.mapping distinct each)

theorem carries_proper (Q : Entity → Prop) : Carries (Proper Q) Q where
  bool := .bool
  integer := .integer
  number := .number
  string := .string
  timestamp := .timestamp
  list := ⟨fun h => by cases h with | list each => exact each, .list⟩
  entry h := by
    cases h with
    | mapping plain =>
      cases plain with
      | mapping distinct each => exact fun entry member => (each entry member).proper
  entity := ⟨fun h => by cases h with | entity holds => exact holds, .entity⟩
  related := ⟨fun h => by cases h with | related holds => exact holds, .related⟩

/-- There are no entities in a plain value. -/
theorem Plain.each {value : Value} (h : value.Plain) : value.Each Q := by
  induction h with
  | list _ ih => exact each_list.2 ih
  | mapping _ _ ih => exact each_mapping.2 ih
  | _ => exact List.forall_mem_nil _

theorem Proper.each {value : Value} (h : value.Proper Q) : value.Each Q := by
  induction h with
  | list _ ih => exact each_list.2 ih
  | mapping plain => exact plain.each
  | entity holds => exact each_entity.2 holds
  | related holds => exact each_related.2 holds
  | _ => exact List.forall_mem_nil _

/-- The entities in a proper value may have another property as well. -/
theorem Proper.of_each {R : Entity → Prop} {value : Value} (h : value.Proper Q)
    (each : value.Each R) : value.Proper R := by
  induction h with
  | bool b => exact .bool b
  | integer i => exact .integer i
  | number x => exact .number x
  | string s => exact .string s
  | timestamp t => exact .timestamp t
  | list _ ih => exact .list fun item member => ih item member (each_list.1 each item member)
  | mapping plain => exact .mapping plain
  | entity _ => exact .entity (each_entity.1 each)
  | related _ => exact .related (each_related.1 each)

theorem Proper.mono {R : Entity → Prop} {value : Value} (h : value.Proper Q)
    (weaker : ∀ e, Q e → R e) : value.Proper R :=
  h.of_each fun e member => weaker e (h.each e member)

end Value

/-! ## Faithful types -/

/-- A type whose entities tell themselves from related records, and from the reference that a record
without properties would be. -/
structure EntityType.Embeddable (t : EntityType) : Prop where
  apart : ∀ key ∈ [idrefKey, relationshipKey], t.field? key = none ∧
    ∀ tag, t.separateTag? = some tag → tag.key ≠ key
  nonempty : ∃ f ∈ t.fields, f.isRequired ∨ f.default?.isSome

/-- A type whose entities can be read back from what they are written as, and those inside which
are of some types. -/
structure EntityType.Faithful (ctx : Context) (T : TypeKey → Prop) (t : EntityType) : Prop where
  /-- There are no custom properties. -/
  closed : ctx.keepsExtras t = false
  asks : ∀ f ∈ t.fields, f.Asks ctx T
  /-- Numbers that are not finite could not be written. -/
  exact : ∀ f ∈ t.fields, f.kind ≠ .leaf .float
  sure : sureDefaults [] t.fields = true
  /-- Hooks do nothing but cache. -/
  caching : ∀ f ∈ t.fields, ∀ hook, f.hook = some hook → hook = .cacheEntity
  /-- What a registry knows, it picks by the tag that is written. -/
  tagged : ∀ f ∈ t.fields, ∀ name, f.kind = .polymorphic name →
    ∀ registry, ctx.registry name = .ok registry → ∀ tag type, (tag, type) ∈ registry.entries →
      registry.get? tag = some type ∧
        (ctx.typeOf type).separateTag? = some ⟨registry.key, tag⟩
  embeddable : ∀ f ∈ t.fields, ∀ type, f.kind = .related type → (ctx.typeOf type).Embeddable

/-- Types that are faithful as they refer to each other, and that are told apart by their names. -/
structure Context.Faithful (ctx : Context) (T : TypeKey → Prop) : Prop where
  types : ∀ key, T key → (ctx.typeOf key).Faithful ctx T
  apart : ∀ a b, T a → T b → (ctx.typeOf a).sameAs (ctx.typeOf b) = true → a = b

/-! ## Settled entities -/

namespace Entity

/-- What is asked of a settled entity for itself. -/
structure Tidy (ctx : Context) (T : TypeKey → Prop) (e : Entity) : Prop where
  known : T e.typeKey
  fits : e.Fits ctx
  bare : e.extras = []
  ordered : e.fields ctx.schema = e.values
  filled : ∀ f ∈ (e.type ctx.schema).fields, f.default?.isSome →
    (Table.get? e.values f.name).isSome
  proper : Mapping.All (·.Proper fun _ => True) e.values

/-- An entity that is tidy, as are all inside. -/
inductive Settled (ctx : Context) (T : TypeKey → Prop) : Entity → Prop where
  | intro {e : Entity} (tidy : e.Tidy ctx T) (nested : ∀ d ∈ e.nested, Settled ctx T d) :
    Settled ctx T e

namespace Settled

variable {ctx : Context} {T : TypeKey → Prop} {e : Entity}

theorem tidy (h : e.Settled ctx T) : e.Tidy ctx T := by
  cases h with
  | intro tidy nested => exact tidy

theorem of_nested (h : e.Settled ctx T) {d : Entity} (member : d ∈ e.nested) : d.Settled ctx T := by
  cases h with
  | intro tidy nested => exact nested d member

/-- The entities in the values are settled too. -/
theorem values (h : e.Settled ctx T) : Mapping.All (·.Proper (·.Settled ctx T)) e.values := by
  have inside := (forall_nested.1 fun d member => h.of_nested member).1
  exact fun entry member => (h.tidy.proper entry member).of_each (inside entry member)

end Settled

end Entity

/-- An entry that the front of a table does not have is put in behind it. -/
theorem Table.insert_append {α : Type} {front : Table α} {key : String} (absent : key ∉ front.keys)
    (back : Table α) (value : α) :
    Table.insert (front ++ back) key value = front ++ back.insert key value := by
  induction front with
  | nil => rfl
  | cons entry front ih =>
    obtain ⟨k, v⟩ := entry
    obtain ⟨apart, later⟩ := not_or.1 fun h => absent (List.mem_cons.2 h)
    rw [List.cons_append, insert, if_neg (Ne.symm apart), ih later, List.cons_append]

namespace Entity

variable {ctx : Context} {T : TypeKey → Prop} {e : Entity}

/-- The values stay in order if the field that is set is the last. -/
theorem fields_setLast {schema : Schema} (ordered : e.fields schema = e.values) {init : List Field}
    {f : Field} (last : (e.type schema).fields = init ++ [f]) (value : Value) :
    fields schema { e with values := Table.insert e.values f.name value } =
      Table.insert e.values f.name value := by
  have names := (e.type schema).distinct
  rw [last, List.map_append, List.nodup_append] at names
  have other : ∀ g ∈ init, f.name ≠ g.name := by
    intro g member same
    exact names.2.2 g.name (List.mem_map_of_mem member) f.name (by simp) same.symm
  let front : Mapping := init.filterMap fun g => (Table.get? e.values g.name).map (g.name, ·)
  have absent : f.name ∉ Table.keys front := by
    intro member
    obtain ⟨entry, there, same⟩ := List.mem_map.1 member
    obtain ⟨g, declared, gave⟩ := List.mem_filterMap.1 there
    obtain ⟨held, _, rfl⟩ := Option.map_eq_some_iff.1 gave
    exact other g declared same.symm
  -- the values end with that of the field, if it is set, so it is put in at the end
  have whole : e.values =
      front ++ [f].filterMap fun g => (Table.get? e.values g.name).map (g.name, ·) := by
    conv => lhs; rw [← ordered, fields, last, List.filterMap_append]
  have put : Table.insert e.values f.name value = front ++ [(f.name, value)] := by
    rw [whole, Table.insert_append absent]
    cases found : Table.get? e.values f.name <;> simp [found, Table.insert]
  show (e.type schema).fields.filterMap (fun g =>
    (Table.get? (Table.insert e.values f.name value) g.name).map (g.name, ·)) = _
  have kept : init.filterMap (fun g =>
      (Table.get? (Table.insert e.values f.name value) g.name).map (g.name, ·)) = front := by
    apply List.filterMap_congr
    intro g member
    rw [Table.get?_insert, if_neg (other g member)]
  rw [last, List.filterMap_append, kept, put]
  have found : Table.get? (front ++ [(f.name, value)]) f.name = some value := by
    rw [← put, Table.get?_insert, if_pos rfl]
  simp [found]

/-- Setting the last field of a settled entity, to what the field stores. -/
theorem Settled.setLast (h : e.Settled ctx T) {init : List Field} {f : Field}
    (last : (e.type ctx.schema).fields = init ++ [f]) {value : Value} (stores : f.Stores ctx value)
    (proper : value.Proper (·.Settled ctx T)) :
    Settled ctx T { e with values := Table.insert e.values f.name value } := by
  have tidy := h.tidy
  have declared : f ∈ (e.type ctx.schema).fields := last ▸ List.mem_append_right _ (by simp)
  have values := h.values.insert f.name proper
  refine .intro ⟨tidy.known, tidy.fits.setField declared stores, tidy.bare,
    fields_setLast tidy.ordered last value, ?_, ?_⟩ ?_
  · intro g member defaulted
    show (Table.get? (Table.insert e.values f.name value) g.name).isSome
    rw [Table.get?_insert]
    split
    · rfl
    · exact tidy.filled g member defaulted
  · exact values.mono fun _ proper => proper.mono fun _ _ => trivial
  · refine forall_nested.2 ⟨values.mono fun _ proper => proper.each, ?_⟩
    show Mapping.All _ e.extras
    rw [tidy.bare]
    exact List.forall_mem_nil _

end Entity

/-! ## What construction settles -/

namespace EntityType

variable {ctx : Context} {T : TypeKey → Prop} {supplied : Mapping}

/-- The values of accepted trials are in the order of the fields. -/
theorem complete_ordered {type : TypeKey} {trials : Trials}
    (fields : trials.list.map (·.field) = (ctx.typeOf type).fields) (noErrors : trials.errors = []) :
    (complete ctx type supplied trials).fields ctx.schema = trials.values := by
  have names := Trials.nodup_names fields
  -- looking up each field in turn gives the value of its trial again
  show (ctx.typeOf type).fields.filterMap
    (fun f => (Table.get? trials.values f.name).map (f.name, ·)) = trials.values
  rw [← fields, List.filterMap_map, Trials.values]
  apply List.filterMap_congr
  intro trial member
  obtain ⟨held, accepted⟩ := Trials.accepted_of_errors noErrors member
  simp only [Function.comp, Trials.get?_values names member accepted]
  obtain ⟨f, outcome⟩ := trial
  obtain rfl : outcome = .ok held := accepted
  cases held <;> rfl

/-- Construction of a faithful type leaves an entity tidy. -/
theorem construct_tidy {builders : Builders} {type : TypeKey}
    (faithful : (ctx.typeOf type).Faithful ctx T) :
    (construct ctx builders type supplied).Ensures fun e =>
      e.extras = [] ∧ e.fields ctx.schema = e.values ∧
        ∀ f ∈ (ctx.typeOf type).fields, f.default?.isSome → (Table.get? e.values f.name).isSome := by
  intro store e calls after run
  obtain ⟨quiet, rfl, -⟩ := construct_ok run
  have fields := trials_fields ctx builders (ctx.typeOf type) supplied (ctx.typeOf type).fields []
    store
  simp only [complaints, List.append_eq_nil_iff] at quiet
  obtain ⟨⟨⟨-, noErrors⟩, noneMissing⟩, -⟩ := quiet
  -- a default of such a type always has something to give
  have filled := trials_filled faithful.sure
    (fun f declared required => supplied_of_missingErrors noneMissing declared required)
    (List.forall_mem_nil _) noErrors
  refine ⟨by simp [complete, faithful.closed], complete_ordered fields noErrors, ?_⟩
  have names := Trials.nodup_names fields
  intro f declared defaulted
  rw [← fields] at declared
  obtain ⟨trial, tried, rfl⟩ := List.mem_map.1 declared
  obtain ⟨held, accepted⟩ := Trials.accepted_of_errors noErrors tried
  show (Table.get? (Trials.values _) trial.field.name).isSome
  rw [Trials.values, Trials.get?_values names tried accepted]
  cases held with
  | none => exact absurd accepted (filled trial tried defaulted)
  | some value => rfl

end EntityType

namespace Context

variable {ctx : Context} {T : TypeKey → Prop}

/-- **Building settles.** What is built of a faithful type, from a mapping of plain values or of
settled entities, is settled. -/
theorem build_settled (faithful : ctx.Faithful T) :
    ctx.build.Makes T (·.Proper (·.Settled ctx T)) (·.Settled ctx T) := by
  intro type known supplied holds
  refine build_induction (P := fun type m x => T type → m.All (·.Proper (·.Settled ctx T)) →
    x.Ensures fun e => e.typeKey = type ∧ e.Settled ctx T) (fun _ _ _ _ => .fail _) ?_
    type supplied known holds
  intro builders bySupplied byDefaulted type m known holds
  have settles := faithful.types type known
  have carries := Value.carries_proper (·.Settled ctx T)
  have offers : ∀ f ∈ (ctx.typeOf type).fields, ∀ default, f.default? = some default →
      default.Offers ctx (·.Proper (·.Settled ctx T)) := by
    intro f declared default given
    obtain ⟨_, sure⟩ := EntityType.isSure_of_mem settles.sure declared given
    exact Default.offers_of_isSure carries sure
  have fits := EntityType.construct_fits carries.conveys (fun type known m => bySupplied type m known)
    (fun type known m => byDefaulted type m known) settles.asks offers holds
  refine (fits.and (EntityType.construct_tidy settles)).mono ?_
  rintro e ⟨⟨rfl, fits, values, -⟩, bare, ordered, filled⟩
  refine ⟨rfl, .intro ⟨known, fits, bare, ordered, filled, ?_⟩ ?_⟩
  · refine values.mono ?_
    intro value proper
    exact proper.mono fun _ _ => trivial
  · -- what is inside was supplied or built, and settled either way
    refine Entity.forall_nested.2 ⟨values.mono fun value proper => proper.each, ?_⟩
    rw [bare]
    exact List.forall_mem_nil _

end Context

end Dossier
