import Dossier.Proofs.Editing
import Dossier.Proofs.Recursion

/-!
# Coercing what was coerced

What coercion gives is what a field stores (`Field.coerce_ensures`), and coercion takes
what a field stores as it is, whatever the builder, with nothing drawn and no hook to be
called (`Field.coerce_of_stores`). So coercion is idempotent, and a value taken from one
entity and set in another of its type stays the same (`Field.coerce_idempotent`).
-/

namespace Dossier

/-- Putting in what is there changes nothing. -/
theorem Table.insert_of_get? {α : Type} {t : Table α} {key : String} {value : α}
    (h : t.get? key = some value) : t.insert key value = t := by
  induction t with
  | nil => cases h
  | cons entry t ih =>
    obtain ⟨k, v⟩ := entry
    rw [get?] at h
    rw [insert]
    split at h
    · next same =>
      obtain rfl := Option.some.inj h
      rw [if_pos same, same]
    · next other => rw [if_neg other, ih h]

/-- A leaf of its kind is taken as it is. -/
theorem LeafKind.coerce_of_holds {kind : LeafKind} {value : Value} (h : kind.Holds value) :
    kind.coerce value = .ok value := by
  cases kind with
  | identifier allowed =>
    cases value with
    | string s =>
      obtain ⟨id, parsed, fits⟩ := h
      have read : (Value.string s).string?.bind Identifier.parse? = some id := parsed
      have allows : ¬(allowed ≠ [] ∧ id.typeName ∉ allowed) := fun ⟨listed, other⟩ =>
        other (fits listed)
      rw [coerce, coerceIdentifier, read]
      dsimp only
      rw [if_neg allows, Identifier.text_of_parse? parsed]
    | _ => exact absurd h id
  | _ => cases value <;> first | rfl | exact absurd h id

namespace Field

variable {ctx : Context} {build : Builder} {owner : EntityType} {f : Field} {value : Value}

theorem coerceKind_of_holds (h : f.kind.Holds ctx value) (segment : String) :
    f.coerceKind ctx build owner segment value = pure value := by
  unfold coerceKind
  cases kind : f.kind with
  | leaf leaf =>
    rw [kind] at h
    dsimp only
    rw [LeafKind.coerce_of_holds h]
  | entity type =>
    rw [kind] at h
    cases value with
    | entity e => exact if_pos h
    | _ => exact absurd h id
  | polymorphic name =>
    rw [kind] at h
    cases value with
    | entity e =>
      obtain ⟨registry, found, known⟩ := h
      show f.coercePolymorphic ctx build owner segment name (.entity e) = _
      rw [coercePolymorphic, found]
      exact (pure_bind registry _).trans (if_pos known)
    | _ => exact absurd h id
  | related type =>
    rw [kind] at h
    cases value with
    | related r =>
      obtain ⟨embeds, wellFormed⟩ := h
      -- a reference that is held was checked to be an identifier
      have refers : (r.idref?.any fun idref => (Identifier.parse? idref).isNone) = false := by
        cases held : r.holding with
        | inline e => simp [RelatedObject.idref?, held]
        | byReference idref =>
          have parsed := wellFormed idref held
          simpa [RelatedObject.idref?, held, ← Option.isSome_iff_ne_none] using parsed
      simp [coerceRelated, embeds, refers]
    | _ => exact absurd h id

/-- One value that the field takes. -/
theorem coerceSingle_of_takes (h : f.Takes ctx value) (segment : String) :
    f.coerceSingle ctx build owner segment value = pure value := by
  rw [coerceSingle, coerceKind_of_holds h.1, pure_bind, h.2]

theorem coerceItems_of_takes {items : List Value} (h : ∀ item ∈ items, f.Takes ctx item)
    (index : Nat) : f.coerceItems ctx build owner index items = pure items := by
  induction items generalizing index with
  | nil => rfl
  | cons item items ih =>
    obtain ⟨first, later⟩ := List.forall_mem_cons.1 h
    rw [coerceItems, coerceSingle_of_takes first, pure_bind, ih later, pure_bind]

/-- **What a field stores is taken as it is**, by any builder: nothing is built for it. -/
theorem coerce_of_stores (h : f.Stores ctx value) : f.coerce ctx build owner value = pure value := by
  unfold coerce
  cases multiple : f.isMultiple with
  | true =>
    obtain ⟨items, rfl, some, takes⟩ := (stores_multiple multiple).1 h
    have nonempty : ¬(((itemsOf (.list items)).isEmpty && f.isRequired) = true) := by
      intro refused
      obtain ⟨empty, required⟩ := Bool.and_eq_true_iff.1 refused
      exact some required (List.isEmpty_iff.1 empty)
    rw [if_pos rfl, if_neg nonempty]
    show Value.list <$> f.coerceItems ctx build owner 0 items = _
    rw [coerceItems_of_takes takes, map_pure]
  | false => exact coerceSingle_of_takes ((stores_single multiple).1 h) f.name

end Field

/-! ## Coercing again -/

theorem Context.buildNesting_makes (ctx : Context) (nesting : Nat) :
    (ctx.buildNesting nesting).Makes (fun _ => True) (·.Each fun _ => True) fun _ => True := by
  intro type _ m _ store e calls after run
  rw [buildNesting_eq] at run
  obtain ⟨-, rfl, -⟩ := EntityType.construct_ok run
  exact ⟨rfl, trivial⟩

/-- What comes of coercion in a context is what the field stores. -/
theorem Field.coerce_stores (ctx : Context) (nesting : Nat) (owner : EntityType) (f : Field)
    (raw : Value) : (f.coerce ctx (ctx.buildNesting nesting) owner raw).Ensures (f.Stores ctx) :=
  (coerce_ensures (Value.carries_each _).conveys (ctx.buildNesting_makes nesting) (f.asks_any ctx)
    (fun _ _ => trivial)).mono fun _ => And.left

/-- Setting a declared field to what it stores puts it in as it is, and calls the field's own hook. -/
theorem Entity.set_of_stores {ctx : Context} {e : Entity} {f : Field}
    (declared : f ∈ (e.type ctx.schema).fields) {value : Value} (stores : f.Stores ctx value)
    (store : Store) :
    (e.set ctx f.name value).run.run store =
      (.ok { e with values := Table.insert e.values f.name value },
        ctx.runHooks
          (f.hook.toList.map fun hook =>
            ⟨hook, { e with values := Table.insert e.values f.name value }⟩) store) := by
  have built : e.setField ctx f value store =
      (.ok ({ e with values := Table.insert e.values f.name value },
        f.hook.toList.map fun hook =>
          ⟨hook, { e with values := Table.insert e.values f.name value }⟩), store) := by
    rw [setField, Field.coerce_of_stores stores, pure_bind]
    cases f.hook with
    | none => rfl
    | some hook => exact Build.leave_run _ _ _
  rw [set, EntityType.field?_of_mem declared]
  exact Build.finish_run_ok built

/-- **Coercion is idempotent.** Whatever a field has a value coerced to, it takes as it is from then
on: nothing is built, drawn or to be called. So a value that an entity has stored in a field is
stored as it is in that field of any entity of its type, and in the entity itself nothing changes. -/
theorem Field.coerce_idempotent (ctx : Context) (f : Field) :
    (∀ nesting owner raw store value calls after,
      f.coerce ctx (ctx.buildNesting nesting) owner raw store = (.ok (value, calls), after) →
        ∀ again, f.coerce ctx ctx.build owner value again = (.ok (value, []), again)) ∧
    ∀ e other value, Reachable ctx e → other.typeKey = e.typeKey →
      f ∈ (e.type ctx.schema).fields → Table.get? e.values f.name = some value →
        ∃ changed : Entity,
          changed = { other with values := Table.insert other.values f.name value } ∧
          (Table.get? other.values f.name = some value → changed = other) ∧
          ∀ store, (other.set ctx f.name value).run.run store =
            (.ok changed, ctx.runHooks (f.hook.toList.map (⟨·, changed⟩)) store) := by
  refine ⟨fun nesting owner raw store value calls after run again => ?_,
    fun e other value reachable same declared held => ?_⟩
  · rw [coerce_of_stores (coerce_stores ctx nesting owner f raw _ _ _ _ run)]
    rfl
  · -- what a reachable entity holds went through the coercion of its field
    have fits := reachable.conforms.fits
    have stores := fits.stores declared held
    have declaredThere : f ∈ (other.type ctx.schema).fields := by
      rwa [Entity.type, same]
    refine ⟨_, rfl, fun there => ?_, fun store => Entity.set_of_stores declaredThere stores store⟩
    rw [Table.insert_of_get? there]
    cases other
    rfl

namespace Reachable

/-- The field of related objects. -/
def relatedObjects : Field := (Field.related "related_objects" Catalog.objectKey).list

/-- The objects that are related to `seenObject`. -/
def seenRelated : Value :=
  .list [.related (.inline {
    typeKey := Catalog.objectKey
    values :=
      [("id", .string "object--00000000-0000-4000-8000-000000000002"), ("state", .string "seen")]
    extras := [] } none)]

/-- A mapping is coerced to them, which is coerced again with no identifier drawn, and set in
another object as it is. -/
theorem seenRelated_again :
    relatedObjects.coerce Request.bareContext Request.bareContext.build Catalog.objectType
      seenRelated { supply := { drawn := 7 } } =
        (.ok (seenRelated, []), { supply := { drawn := 7 } }) ∧
    ∃ changed : Entity,
      changed = { typeKey := Catalog.objectKey
                  values := [("related_objects", seenRelated)]
                  extras := [] } ∧
      (Table.get? ([] : Mapping) "related_objects" = some seenRelated →
        changed = ⟨Catalog.objectKey, [], []⟩) ∧
      ∀ store, (Entity.set Request.bareContext ⟨Catalog.objectKey, [], []⟩ "related_objects"
        seenRelated).run.run store = (.ok changed, store) :=
  have again := Field.coerce_idempotent Request.bareContext relatedObjects
  ⟨again.1 0 Catalog.objectType (.mapping [("state", .string "seen")])
      { supply := { drawn := 1 } } seenRelated _ _ rfl { supply := { drawn := 7 } },
    again.2 seenObject ⟨Catalog.objectKey, [], []⟩ seenRelated seenObject_made rfl
      (@EntityType.mem_of_field? _ "related_objects" _ rfl).1 rfl⟩

end Reachable

end Dossier
