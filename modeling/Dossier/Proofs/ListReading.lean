import Dossier.EntityList
import Dossier.Proofs.Reassignment

/-!
# Reading lists out of fields

A list of entities, or of related objects, is read out of a field by keeping those of the
stored values that are elements of that sort. Read as the sort of element that the field
is declared to hold, the list is all that is stored, and setting the field to it changes
nothing. Read as the other sort it is empty, whatever is stored: `EntityList.ofField?_reads`.
-/

namespace Dossier

/-- Elements that are the values of one kind of field. -/
class FieldListable (α : Type) [Listable α] where
  /-- The fields whose values are elements of this sort, of a type. -/
  kind : TypeKey → FieldKind
  /-- What such a field takes is an element. -/
  ofValue?_own {ctx : Context} {type : TypeKey} {value : Value} :
    (kind type).Holds ctx value →
      ∃ item : α, Listable.ofValue? value = some item ∧ Listable.toValue item = value
  /-- What a list of elements of another sort takes is none. -/
  ofValue?_foreign {ctx : Context} {k : FieldKind} {type : TypeKey} {value : Value} :
    k = .entity type ∨ k = .related type → k ≠ kind type → k.Holds ctx value →
      (Listable.ofValue? value : Option α) = none

instance : FieldListable Entity where
  kind := .entity
  ofValue?_own {_ _ value} holds := by
    cases value with
    | entity e => exact ⟨e, rfl, rfl⟩
    | _ => exact absurd holds id
  ofValue?_foreign {_ _ _ value} listed other holds := by
    obtain rfl := listed.resolve_left other
    cases value with
    | related r => rfl
    | _ => exact absurd holds id

instance : FieldListable RelatedObject where
  kind := .related
  ofValue?_own {_ _ value} holds := by
    cases value with
    | related r => exact ⟨r, rfl, rfl⟩
    | _ => exact absurd holds id
  ofValue?_foreign {_ _ _ value} listed other holds := by
    obtain rfl := listed.resolve_right other
    cases value with
    | entity e => rfl
    | _ => exact absurd holds id

/-- The list stored in a field, which is the empty one if the field is not set. -/
def Entity.storedList (e : Entity) (name : String) : Value := (e.get? name).getD (.list [])

namespace EntityList

variable {α : Type} [Listable α] [FieldListable α] {ctx : Context} {f : Field}

/-- Nothing is passed over of values of the elements' own kind. -/
theorem map_toValue_filterMap {type : TypeKey} (own : f.kind = FieldListable.kind α type)
    {values : List Value} (takes : ∀ value ∈ values, f.Takes ctx value) :
    (values.filterMap (Listable.ofValue? : Value → Option α)).map Listable.toValue = values := by
  induction values with
  | nil => rfl
  | cons value values ih =>
    obtain ⟨first, later⟩ := List.forall_mem_cons.1 takes
    obtain ⟨item, read, back⟩ := FieldListable.ofValue?_own (own ▸ first.1)
    rw [List.filterMap_cons_some read, List.map_cons, back, ih later]

/-- All is passed over of values of the other kind. -/
theorem filterMap_foreign {type : TypeKey} (listed : f.kind = .entity type ∨ f.kind = .related type)
    (foreign : f.kind ≠ FieldListable.kind α type) {values : List Value}
    (takes : ∀ value ∈ values, f.Takes ctx value) :
    values.filterMap (Listable.ofValue? : Value → Option α) = [] := by
  rw [List.filterMap_eq_nil_iff]
  intro value member
  exact FieldListable.ofValue?_foreign listed foreign (takes value member).1

/-! ## Reading -/

omit [FieldListable α] in
/-- The fields that lists can be read out of, and what is read. -/
theorem ofField?_eq_some {schema : Schema} {e : Entity} {name : String} {list : EntityList α}
    (read : ofField? schema e name = some list) :
    ∃ f ∈ (e.type schema).fields, f.name = name ∧ f.isMultiple = true ∧
      (f.kind = .entity list.elementType ∨ f.kind = .related list.elementType) ∧
      list.items = ((e.list? name).getD []).filterMap Listable.ofValue? := by
  unfold ofField? at read
  obtain ⟨f, found, given⟩ := Option.bind_eq_some_iff.1 read
  obtain ⟨declared, named⟩ := EntityType.mem_of_field? found
  split at given
  · next multiple =>
    refine ⟨f, declared, named, multiple, ?_⟩
    cases kind : f.kind with
    | entity type =>
      rw [kind] at given
      cases given
      exact ⟨.inl rfl, rfl⟩
    | related type =>
      rw [kind] at given
      cases given
      exact ⟨.inr rfl, rfl⟩
    | _ =>
      rw [kind] at given
      cases given
  · cases given

/-- What a field of lists holds is the list stored in it, which is what the field stores: a required
field is set, and so not empty. -/
theorem storedList_of_fits {e : Entity} (fits : e.Fits ctx)
    (declared : f ∈ (e.type ctx.schema).fields) (multiple : f.isMultiple = true) :
    f.Stores ctx (e.storedList f.name) ∧
      e.storedList f.name = .list ((e.list? f.name).getD []) ∧
      ((Table.get? e.values f.name).isSome →
        Table.get? e.values f.name = some (e.storedList f.name)) := by
  have own : e.get? f.name = Table.get? e.values f.name := by
    rw [Entity.get?, fits.undeclared.get?_extras declared, Option.or_none]
  unfold Entity.storedList Entity.list?
  rw [own]
  cases held : Table.get? e.values f.name with
  | none =>
    refine ⟨(Field.stores_multiple multiple).2 ⟨[], rfl, ?_, List.forall_mem_nil _⟩, rfl, nofun⟩
    intro required
    have set := fits.required f declared required
    rw [held] at set
    cases set
  | some value =>
    have stores := fits.stores declared held
    obtain ⟨items, rfl, -⟩ := (Field.stores_multiple multiple).1 stores
    exact ⟨stores, rfl, fun _ => rfl⟩

/-- How a list that was read out of a field relates to what is stored there. -/
structure ReadFrom (ctx : Context) (e : Entity) (f : Field) (list : EntityList α) : Prop where
  declared : f ∈ (e.type ctx.schema).fields
  /-- The list is what is stored where the field is declared to hold such elements, or holds none. -/
  whole : list.toValue = e.storedList f.name ↔
    f.kind = FieldListable.kind α list.elementType ∨ e.storedList f.name = .list []
  /-- Otherwise it is empty: what is stored is left out, all of it. -/
  foreign : f.kind ≠ FieldListable.kind α list.elementType → list.items = []
  /-- Setting the field to the list that is stored is accepted, and changes nothing but that a field
  that was not set holds the empty list then. -/
  back : list.toValue = e.storedList f.name → ∀ store, ∃ changed after,
    (e.set ctx f.name list.toValue).run.run store = (.ok changed, after) ∧
    ((Table.get? e.values f.name).isSome → changed = e) ∧
    (Table.get? e.values f.name = none →
      changed = { e with values := Table.insert e.values f.name (.list []) })

theorem readFrom_of_fits {e : Entity} (fits : e.Fits ctx) {name : String} {list : EntityList α}
    (read : ofField? ctx.schema e name = some list) :
    ∃ f, f.name = name ∧ ReadFrom ctx e f list := by
  obtain ⟨f, declared, rfl, multiple, listed, items⟩ := ofField?_eq_some read
  obtain ⟨stores, whole, held⟩ := storedList_of_fits fits declared multiple
  obtain ⟨values, same, -, takes⟩ := (Field.stores_multiple multiple).1 stores
  obtain rfl : (e.list? f.name).getD [] = values := Value.list.inj (whole.symm.trans same)
  -- the items of a field of the other sort are all left out
  have foreign : f.kind ≠ FieldListable.kind α list.elementType → list.items = [] := by
    intro other
    rw [items]
    exact filterMap_foreign listed other takes
  refine ⟨f, rfl, declared, ⟨fun equal => ?_, ?_⟩, foreign, fun equal store => ?_⟩
  · -- a list of the other sort is empty, so it can only be that nothing is stored
    by_cases own : f.kind = FieldListable.kind α list.elementType
    · exact .inl own
    · refine .inr ?_
      rw [← equal, toValue, foreign own]
      rfl
  · rintro (own | nothing)
    · rw [toValue, items, map_toValue_filterMap own takes, whole]
    · rw [nothing] at whole
      rw [nothing, toValue, items, ← Value.list.inj whole]
      rfl
  · rw [equal]
    refine ⟨_, _, Entity.set_of_stores declared stores store, fun set => ?_, fun unset => ?_⟩
    · rw [Table.insert_of_get? (held set)]
      cases e
      rfl
    · have nothing : e.storedList f.name = .list [] := by
        rw [Entity.storedList, Entity.get?, unset, fits.undeclared.get?_extras declared]
        rfl
      rw [nothing]

/-- **What is read out of a field of lists.** Of a reachable entity a list of entities, and one of
related objects, is exactly what is stored if the field is declared to hold such elements, and can
then be set again without a change; of a field that holds the others it is empty. -/
theorem ofField?_reads {ctx : Context} {e : Entity} (reachable : Reachable ctx e) (name : String) :
    (∀ list : EntityList Entity, ofField? ctx.schema e name = some list →
      ∃ f, f.name = name ∧ ReadFrom ctx e f list) ∧
    ∀ list : EntityList RelatedObject, ofField? ctx.schema e name = some list →
      ∃ f, f.name = name ∧ ReadFrom ctx e f list :=
  have fits := reachable.conforms.fits
  ⟨fun _ read => readFrom_of_fits fits read, fun _ read => readFrom_of_fits fits read⟩

/-- The object that is related to `Reachable.seenObject`, as a list of one. -/
def seenList : EntityList RelatedObject where
  elementType := Catalog.objectKey
  items := [.inline {
    typeKey := Catalog.objectKey
    values :=
      [("id", .string "object--00000000-0000-4000-8000-000000000002"), ("state", .string "seen")]
    extras := [] } none]

/-- Read as entities the related objects are an empty list, which is not the one that is stored;
setting the field to it leaves none. -/
theorem seenObject_misread :
    Reachable Request.bareContext Reachable.seenObject ∧
    ofField? Request.bareContext.schema Reachable.seenObject "related_objects" =
      some ({ elementType := Catalog.objectKey } : EntityList Entity) ∧
    ({ elementType := Catalog.objectKey } : EntityList Entity).toValue ≠
      Reachable.seenObject.storedList "related_objects" ∧
    (Reachable.seenObject.set Request.bareContext "related_objects"
      ({ elementType := Catalog.objectKey } : EntityList Entity).toValue).run.run {} =
        (.ok { Reachable.seenObject with
          values :=
            [("id", .string "object--00000000-0000-4000-8000-000000000001"),
              ("related_objects", .list [])] }, {}) := by
  refine ⟨Reachable.seenObject_made, rfl, fun same => ?_, rfl⟩
  cases Value.list.inj same

/-- Both readings of the field. -/
theorem seenObject_reads :
    (∃ f, f.name = "related_objects" ∧
      ReadFrom Request.bareContext Reachable.seenObject f
        ({ elementType := Catalog.objectKey } : EntityList Entity)) ∧
    ∃ f, f.name = "related_objects" ∧
      ReadFrom Request.bareContext Reachable.seenObject f seenList :=
  have reads := ofField?_reads Reachable.seenObject_made "related_objects"
  ⟨reads.1 _ rfl, reads.2 seenList rfl⟩

end EntityList

end Dossier
