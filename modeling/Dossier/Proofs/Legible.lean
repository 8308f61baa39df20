import Dossier.Proofs.Records

/-!
# Legible entities

A legible entity is one that its canonical form tells all about: its properties are
in the order in which they are written, nothing in them is lost in writing, the
defaults of unset fields have nothing to give, and from what an entity inside is
written as its type is found again. So it is with the entities inside, at any depth.
-/

namespace Dossier

/-- A value of which writing loses nothing, leaving aside the entities in it: numbers are finite,
timestamps have a year from 0 to 9999, and mappings are plain. -/
inductive Value.Written : Value → Prop where
  | bool (b : Bool) : Written (.bool b)
  | integer (i : Int64) : Written (.integer i)
  | number (x : Binary64.Finite) : Written (.number (.finite x))
  | string (s : String) : Written (.string s)
  | timestamp {t : Timestamp} (dated : 0 ≤ t.date.year ∧ t.date.year ≤ 9999) :
    Written (.timestamp t)
  | list {items : List Value} (each : ∀ item ∈ items, Written item) : Written (.list items)
  | mapping {m : Mapping} (plain : (Value.mapping m).Plain) : Written (.mapping m)
  | entity (e : Entity) : Written (.entity e)
  | related (r : RelatedObject) : Written (.related r)

/-- What an entity in the value is written as is taken for an entity of its type. -/
def FieldKind.Recognises (ctx : Context) : FieldKind → Value → Prop
  | entity type, .entity e => e.typeKey = type
  | polymorphic name, .entity e =>
    ∃ registry, ctx.registry name = .ok registry ∧ registry.pick (e.reading ctx) = .ok e.typeKey
  | related type, .related r =>
    ∀ e, r.embedded? = some e → e.typeKey = type ∧ e.Recordable ctx.schema
  | _, _ => True

def Field.Recognises (ctx : Context) (f : Field) (value : Value) : Prop :=
  ∀ item ∈ if f.isMultiple then itemsOf value else [value], f.kind.Recognises ctx item

/-- The default draws nothing and does nothing, and has no value to copy, to compute or to answer. -/
def Default.Silent (ctx : Context) (owner : EntityType) (assigned : Mapping) : Default → Prop
  | sameAs field => assigned.get? field = none
  | computed compute => compute { name := owner.name, typeName := owner.typeName, assigned } = none
  | deferred name =>
    ∀ store, ctx.defaults name { type := owner, assigned } store = (none, store)
  | _ => False

theorem Default.Silent.rawValue {ctx : Context} {owner : EntityType} {assigned : Mapping}
    {default : Default} (h : default.Silent ctx owner assigned) :
    default.rawValue ctx owner assigned = pure none := by
  cases default with
  | sameAs field => exact congrArg pure h
  | computed compute => exact congrArg pure h
  | deferred name =>
    funext store
    show Build.ask ctx name { type := owner, assigned } store = (.ok (none, []), store)
    rw [Build.ask, h store]
  | _ => exact absurd h id

/-- What a deferred default gave once says nothing of what it will give. -/
def Default.isDeferred : Default → Bool
  | deferred _ => true
  | _ => false

/-! ## Legible entities -/

namespace Entity

/-- The entity has a property, and so have all entities inside, at any depth. -/
inductive Throughout (P : Entity → Prop) : Entity → Prop where
  | intro {e : Entity} (holds : P e) (nested : ∀ d ∈ e.nested, Throughout P d) : Throughout P e

namespace Throughout

variable {P Q : Entity → Prop} {e : Entity}

theorem holds (h : e.Throughout P) : P e := by
  cases h with
  | intro holds nested => exact holds

theorem of_nested (h : e.Throughout P) {d : Entity} (member : d ∈ e.nested) : d.Throughout P := by
  cases h with
  | intro holds nested => exact nested d member

theorem mono (h : e.Throughout P) (weaker : ∀ d, P d → Q d) : e.Throughout Q := by
  induction h with
  | intro holds _ ih => exact .intro (weaker _ holds) ih

theorem and (h : e.Throughout P) (other : e.Throughout Q) : e.Throughout fun d => P d ∧ Q d := by
  induction h with
  | intro holds _ ih =>
    exact .intro ⟨holds, other.holds⟩ fun d member => ih d member (other.of_nested member)

end Throughout

/-- The values of some fields, of those that are set. -/
def held (e : Entity) (fields : List Field) : Mapping :=
  fields.filterMap fun f => (Table.get? e.values f.name).map (f.name, ·)

/-- An unset field has no default of a sort, or one with nothing to give after the fields before
it. -/
def Unprompted (ctx : Context) (sort : Default → Prop) (e : Entity) : Prop :=
  ∀ before f after, (e.type ctx.schema).fields = before ++ f :: after →
    Table.get? e.values f.name = none → ∀ default, f.default? = some default → sort default →
      default.Silent ctx (e.type ctx.schema) (e.held before)

/-- An entity as construction leaves it. -/
structure Arranged (ctx : Context) (e : Entity) : Prop where
  laid : e.Laid ctx
  silent : e.Unprompted ctx (·.isDeferred = false)

/-- An entity that is written in full: nothing of what it holds is lost, the types of the entities
inside are found again, and what it does not hold is not made up for by a deferred default. -/
structure Explicit (ctx : Context) (e : Entity) : Prop where
  written : Mapping.All Value.Written e.values
  plain : Mapping.All Value.Plain e.extras
  recognised : ∀ f ∈ (e.type ctx.schema).fields, ∀ value,
    Table.get? e.values f.name = some value → f.Recognises ctx value
  undeferred : e.Unprompted ctx (·.isDeferred = true)

/-- An entity that is arranged and written in full, as are all inside. -/
def Legible (ctx : Context) : Entity → Prop :=
  Throughout fun e => e.Arranged ctx ∧ e.Explicit ctx

/-- No default of an unset field of a legible entity has anything to give. -/
theorem Arranged.unprompted {ctx : Context} {e : Entity} (h : e.Arranged ctx)
    (undeferred : e.Unprompted ctx (·.isDeferred = true)) : e.Unprompted ctx fun _ => True := by
  intro before f after split unset default given _
  cases deferred : default.isDeferred with
  | false => exact h.silent before f after split unset default given deferred
  | true => exact undeferred before f after split unset default given deferred

/-- What is under the name of a field is what the field stores. -/
theorem Laid.stores {ctx : Context} {e : Entity} (h : e.Laid ctx) {f : Field}
    (declared : f ∈ (e.type ctx.schema).fields) {value : Value}
    (stored : Table.get? e.values f.name = some value) : f.Stores ctx value :=
  h.fits.stores declared stored

/-- Every value is under the name of a field. -/
theorem Laid.exists_field {ctx : Context} {e : Entity} (h : e.Laid ctx) {entry : String × Value}
    (member : entry ∈ e.values) : ∃ f ∈ (e.type ctx.schema).fields,
      f.name = entry.1 ∧ Table.get? e.values f.name = some entry.2 := by
  obtain ⟨f, declared, same, -⟩ := h.fits.stored _ _ member
  exact ⟨f, declared, same, same ▸ h.distinct_values.get?_of_mem member⟩

end Entity

end Dossier
