import Dossier.Proofs.Reachable

/-!
# Setting and clearing properties

What setting a property and clearing one can do to an entity, in any context: a
declared field comes to hold what it stores or is emptied if it is optional, and any
other name is that of a custom property, put in as it is where those are kept
(`Entity.set_ok`, `Entity.unset_ok`).
-/

namespace Dossier.Entity

variable {ctx : Context} {e changed : Entity} {name : String}

/-- What a property that was set has changed. -/
theorem set_ok {value : Value} {store after : Store}
    (run : (e.set ctx name value).run.run store = (.ok changed, after)) :
    (∃ f ∈ (e.type ctx.schema).fields, f.name = name ∧ ∃ held, f.Stores ctx held ∧
      changed = { e with values := Table.insert e.values name held }) ∨
    ((e.type ctx.schema).field? name = none ∧ ctx.keepsExtras (e.type ctx.schema) = true ∧
      changed = { e with extras := Table.insert e.extras name value }) := by
  unfold set at run
  cases found : (e.type ctx.schema).field? name with
  | some f =>
    simp only [found] at run
    obtain ⟨declared, rfl⟩ := EntityType.mem_of_field? found
    have makes := ctx.build_makes (Q := fun _ => True) (fun _ _ _ => trivial) fun _ _ => trivial
    have each : value.Each fun _ => True := fun _ _ => trivial
    have changes :=
      setField_ensures (e := e) (Value.carries_each _).conveys makes (f.asks_any ctx) each
    obtain ⟨held, stores, -, rfl⟩ := changes.of_finish run
    exact .inl ⟨f, declared, rfl, held, stores, rfl⟩
  | none =>
    simp only [found] at run
    split at run
    · next keeps =>
      obtain rfl := Except.ok.inj (Prod.mk.inj run).1
      exact .inr ⟨rfl, keeps, rfl⟩
    · exact absurd (Prod.mk.inj run).1 (by simp)

/-- What a property that was cleared has changed. -/
theorem unset_ok {schema : Schema} {cleared : Option Value}
    (run : e.unset schema name = .ok (cleared, changed)) :
    (∃ f ∈ (e.type schema).fields, f.name = name ∧ f.isRequired = false ∧
      cleared = Table.get? e.values name ∧
      changed = { e with values := Table.erase e.values name }) ∨
    ((e.type schema).field? name = none ∧ cleared = Table.get? e.extras name ∧
      changed = { e with extras := Table.erase e.extras name }) := by
  unfold unset at run
  cases found : (e.type schema).field? name with
  | some f =>
    simp only [found] at run
    obtain ⟨declared, rfl⟩ := EntityType.mem_of_field? found
    split at run
    · cases run
    · next optional =>
      cases run
      exact .inl ⟨f, declared, rfl, by simpa using optional, rfl, rfl⟩
  | none =>
    simp only [found] at run
    cases run
    exact .inr ⟨rfl, rfl, rfl⟩

/-- No custom property has the name of a declared field. -/
def Apart (schema : Schema) (e : Entity) : Prop :=
  ∀ key ∈ Table.keys e.extras, (e.type schema).field? key = none

theorem Fits.undeclared (h : e.Fits ctx) : e.Apart ctx.schema := by
  intro key member
  obtain ⟨⟨_, value⟩, there, rfl⟩ := List.mem_map.1 member
  exact h.apart _ value there

namespace Apart

variable {schema : Schema}

/-- A declared field is not looked up among the custom properties. -/
theorem get?_extras (h : e.Apart schema) {f : Field} (declared : f ∈ (e.type schema).fields) :
    Table.get? e.extras f.name = none := by
  rw [Table.get?_eq_none_iff]
  intro member
  have absent := h f.name member
  rw [EntityType.field?_of_mem declared] at absent
  cases absent

theorem set (h : e.Apart ctx.schema) {value : Value} {store after : Store}
    (run : (e.set ctx name value).run.run store = (.ok changed, after)) :
    changed.Apart ctx.schema := by
  rcases set_ok run with ⟨f, -, -, held, -, rfl⟩ | ⟨undeclared, -, rfl⟩
  · exact h
  · intro key member
    obtain ⟨⟨other, found⟩, there, rfl⟩ := List.mem_map.1 member
    rcases Table.mem_of_mem_insert there with ⟨rfl, -⟩ | before
    · exact undeclared
    · exact h other (List.mem_map_of_mem before)

theorem unset (h : e.Apart schema) {cleared : Option Value}
    (run : e.unset schema name = .ok (cleared, changed)) : changed.Apart schema := by
  rcases unset_ok run with ⟨f, -, -, -, -, rfl⟩ | ⟨-, -, rfl⟩
  · exact h
  · intro key member
    obtain ⟨entry, there, rfl⟩ := List.mem_map.1 member
    exact h entry.1 (List.mem_map_of_mem (Table.mem_of_mem_erase there))

end Apart

end Dossier.Entity
