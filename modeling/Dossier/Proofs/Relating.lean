import Dossier.Proofs.Caching
import Dossier.Proofs.Naming
import Dossier.Proofs.Reassignment

/-!
# Relating objects

Relating an object to another reads the list of related objects, adds one at its end and has the
whole list coerced again. Nothing is lost on the way, because the field of an object that has
come about holds related objects only (`Entity.Stocked`), each of which it takes as it is, and
the identifier of such an object is well-formed. So one attempt fails only for want of an identifier
to refer to, and else appends and caches (`Object.addRelated_run`), and so do attempts one after
the other (`Object.relateAll_appends`).
-/

namespace Dossier

/-- Fields that go by no registry store the same in all contexts of a schema. -/
theorem Field.Stores.of_schema {ctx other : Context} {f : Field} {value : Value}
    (h : f.Stores ctx value) (unregistered : ∀ name, f.kind ≠ .polymorphic name)
    (same : other.schema = ctx.schema) : f.Stores other value := by
  -- only a polymorphic field asks the registries of the context
  have holds : ∀ item, f.kind.Holds ctx item → f.kind.Holds other item := by
    intro item h
    cases kind : f.kind with
    | leaf leaf => rwa [kind] at h
    | polymorphic name => exact absurd kind (unregistered name)
    | entity type =>
      rw [kind] at h
      cases item with
      | entity e =>
        show e.isOf other.schema (other.schema.typeOf type) = true
        rwa [same]
      | _ => exact absurd h id
    | related type =>
      rw [kind] at h
      cases item with
      | related r =>
        show r.Refers other.schema (other.schema.typeOf type)
        rwa [same]
      | _ => exact absurd h id
  cases multiple : f.isMultiple with
  | true =>
    obtain ⟨items, listed, some, each⟩ := (stores_multiple multiple).1 h
    exact (stores_multiple multiple).2 ⟨items, listed, some, fun item member =>
      ⟨holds item (each item member).1, (each item member).2⟩⟩
  | false =>
    obtain ⟨shape, valid⟩ := (stores_single multiple).1 h
    exact (stores_single multiple).2 ⟨holds value shape, valid⟩

namespace Entity

/-- What is set of the fields that go by no registry is what they store, in any context. -/
def Stocked (schema : Schema) (e : Entity) : Prop :=
  ∀ f ∈ (e.type schema).fields, (∀ name, f.kind ≠ .polymorphic name) →
    ∀ value, Table.get? e.values f.name = some value →
      ∀ ctx : Context, ctx.schema = schema → f.Stores ctx value

theorem stocked_keeps (ctx : Context) : ctx.Keeps (·.Stocked ctx.schema) where
  fits h f declared unregistered value held other same :=
    (h.stores declared held).of_schema unregistered same
  set {e changed name value store after} h run := by
    rcases set_ok run with ⟨g, declared, rfl, held, stores, rfl⟩ | ⟨-, -, rfl⟩
    · intro f member unregistered value found other same
      replace found : Table.get? (Table.insert e.values g.name held) f.name = some value := found
      rw [Table.get?_insert] at found
      split at found
      · next named =>
        obtain rfl := EntityType.eq_of_name_eq declared member named
        obtain rfl := Option.some.inj found
        exact stores.of_schema unregistered same
      · exact h f member unregistered value found other same
    · exact h

theorem Stocked.unset {schema : Schema} {e changed : Entity} {name : String}
    {cleared : Option Value} (h : e.Stocked schema)
    (run : e.unset schema name = .ok (cleared, changed)) : changed.Stocked schema := by
  rcases unset_ok run with ⟨g, -, -, -, -, rfl⟩ | ⟨-, -, rfl⟩
  · intro f member unregistered value found
    replace found : Table.get? (Table.erase e.values name) f.name = some value := found
    rw [Table.get?_erase] at found
    split at found
    · cases found
    · exact h f member unregistered value found
  · exact h

/-- Entities of a type have the same identifier if they differ only in a property that is not for
it. -/
theorem identifier?_congr {schema : Schema} {a b : Entity} {name : String}
    (type : a.typeKey = b.typeKey) (others : ∀ other, other ≠ name → a.get? other = b.get? other)
    (apart : (b.type schema).idField ≠ some name) : a.identifier? schema = b.identifier? schema := by
  have types : a.type schema = b.type schema := congrArg schema.typeOf type
  unfold identifier?
  rw [types]
  cases named : (b.type schema).idField with
  | none => rfl
  | some key =>
    have other : key ≠ name := fun same => apart (same ▸ named)
    simp only [Option.bind_some, string?, others key other]

end Entity

theorem Obtained.stocked {schema : Schema} {e : Entity} (h : Obtained schema e) :
    e.Stocked schema :=
  h.keeps (P := fun schema => (·.Stocked schema)) Entity.stocked_keeps fun before run =>
    before.unset run

namespace Catalog.Object

/-! ## Objects that have come about -/

/-- An object of the catalog's type that comes of operations. -/
structure Obtained (schema : Schema) (o : Object) : Prop where
  entity : Dossier.Obtained schema o.entity
  type : o.entity.type schema = objectType

/-- Items that the field of related objects takes are related objects, all of which are read. -/
theorem items_of_takes {ctx : Context} {items : List Value}
    (takes : ∀ item ∈ items, Reachable.relatedObjects.Takes ctx item) :
    items = (items.filterMap (·.related?)).map .related ∧
      ∀ r ∈ items.filterMap (·.related?), r.Refers ctx.schema (ctx.typeOf objectKey) := by
  induction items with
  | nil => exact ⟨rfl, List.forall_mem_nil _⟩
  | cons item items ih =>
    obtain ⟨first, later⟩ := List.forall_mem_cons.1 takes
    obtain ⟨same, refer⟩ := ih later
    cases item with
    | related r =>
      have read : (Value.related r :: items).filterMap (·.related?) =
          r :: items.filterMap (·.related?) := rfl
      rw [read]
      exact ⟨congrArg (_ :: ·) same, List.forall_mem_cons.2 ⟨first.1, refer⟩⟩
    | _ => exact absurd first.1 fun none => none

section

variable {schema : Schema} {o : Object}

theorem Obtained.declared (h : o.Obtained schema) :
    Reachable.relatedObjects ∈ (o.entity.type schema).fields := by
  rw [h.type]
  exact (@EntityType.mem_of_field? _ "related_objects" _ rfl).1

theorem Obtained.own (h : o.Obtained schema) :
    (o.entity.type schema).idField ≠ some "related_objects" := by
  rw [h.type]
  decide

/-- The identifier of an object that has come about is well-formed. -/
theorem Obtained.parse?_identifier (h : o.Obtained schema) {s : String}
    (given : o.entity.identifier? schema = some s) : (Identifier.parse? s).isSome := by
  have type := h.type
  obtain ⟨id, read, -⟩ := h.entity.checked.under "id" (by rw [type]; rfl)
    (by rw [type]; exact List.mem_cons_self) given
  rw [read]
  rfl

/-- The list of related objects is read from what is stored in the field alone. -/
theorem Obtained.relatedObjects_eq (h : o.Obtained schema) :
    o.relatedObjects schema =
      { elementType := objectKey
        items := (((Table.get? o.entity.values "related_objects").bind (·.list?)).getD []).filterMap
          (·.related?) } := by
  have absent : Table.get? o.entity.extras "related_objects" = none :=
    h.entity.checked.apart.get?_extras h.declared
  have field : (o.entity.type schema).field? "related_objects" = some Reachable.relatedObjects := by
    rw [h.type]
    rfl
  unfold relatedObjects EntityList.ofField?
  rw [field]
  simp only [Entity.list?, Entity.get?, absent, Option.or_none]
  rfl

/-- The field holds what is read from it and nothing else, all of which it stores. -/
theorem Obtained.relatedObjects_stored (catalog : schema.typeOf objectKey = objectType)
    (h : o.Obtained schema) {value : Value}
    (held : Table.get? o.entity.values "related_objects" = some value) :
    value = .list ((o.relatedObjects schema).items.map .related) ∧
      ∀ r ∈ (o.relatedObjects schema).items, r.Refers schema objectType := by
  obtain ⟨items, rfl, -, takes⟩ := (Field.stores_multiple rfl).1
    (h.entity.stocked _ h.declared (by rintro name ⟨⟩) value held
      { Request.bareContext with schema } rfl)
  obtain ⟨same, refer⟩ := items_of_takes takes
  rw [h.relatedObjects_eq, held, ← catalog]
  exact ⟨congrArg Value.list same, refer⟩

theorem Obtained.relatedObjects_refer (catalog : schema.typeOf objectKey = objectType)
    (h : o.Obtained schema) :
    ∀ r ∈ (o.relatedObjects schema).items, r.Refers schema objectType := by
  cases held : Table.get? o.entity.values "related_objects" with
  | none =>
    rw [h.relatedObjects_eq, held]
    exact List.forall_mem_nil _
  | some value => exact (h.relatedObjects_stored catalog held).2

end

/-! ## One attempt -/

/-- The object with one related object more. -/
def withRelated (schema : Schema) (o : Object) (r : RelatedObject) : Object :=
  ⟨{ o.entity with
    values := Table.insert o.entity.values "related_objects"
      (.list (((o.relatedObjects schema).items ++ [r]).map .related)) }⟩

section

variable {ctx : Context} {o other : Object} {relationship : String} {isInline : Bool}

/-- What another object is related as is what the field takes. -/
theorem Obtained.refers_of_ofEntity (h : other.Obtained ctx.schema) {r : RelatedObject}
    (related : RelatedObject.ofEntity ctx.schema other.entity (some relationship) isInline =
      .ok r) : r.Refers ctx.schema objectType := by
  unfold RelatedObject.ofEntity at related
  split at related
  · cases related
    refine ⟨?_, fun idref held => by cases held⟩
    show (other.entity.type ctx.schema).sameAs objectType = true
    rw [h.type]
    exact EntityType.sameAs_self _
  · simp only [RelatedObject.toReference, RelatedObject.inline, Entity.requireIdentifier] at related
    cases identified : other.entity.identifier? ctx.schema with
    | none =>
      rw [identified] at related
      cases related
    | some identifier =>
      rw [identified] at related
      cases related
      refine ⟨rfl, fun idref held => ?_⟩
      cases held
      exact h.parse?_identifier identified

variable (catalog : ctx.schema.typeOf objectKey = objectType)

include catalog

/-- An attempt fails for want of an identifier to refer to, or adds what it comes to and caches. -/
theorem addRelated_run (h : o.Obtained ctx.schema) (hOther : other.Obtained ctx.schema)
    (store : Store) :
    (o.addRelated ctx other relationship isInline).run.run store =
      match RelatedObject.ofEntity ctx.schema other.entity (some relationship) isInline with
      | .error e => (.error e, store)
      | .ok r => (.ok (o.withRelated ctx.schema r),
          ctx.cacheEntity (o.withRelated ctx.schema r).entity store) := by
  cases related : RelatedObject.ofEntity ctx.schema other.entity (some relationship) isInline with
  | error e =>
    unfold addRelated
    rw [related]
    rfl
  | ok r =>
    have refers := hOther.refers_of_ofEntity related
    have elementType : (o.relatedObjects ctx.schema).elementType = objectKey := by
      rw [h.relatedObjects_eq]
    -- the list is of objects, and so is what is pushed
    have pushed : (o.relatedObjects ctx.schema).push ctx.schema r =
        .ok { o.relatedObjects ctx.schema with
          items := (o.relatedObjects ctx.schema).items ++ [r] } := by
      refine if_pos ?_
      rw [elementType, catalog]
      exact refers.1
    -- the field takes the longer list as it is, since every item is one that it stores
    have stores : Reachable.relatedObjects.Stores ctx
        (.list (((o.relatedObjects ctx.schema).items ++ [r]).map .related)) := by
      refine (Field.stores_multiple rfl).2 ⟨_, rfl, by rintro ⟨⟩, ?_⟩
      intro item member
      obtain ⟨d, inside, rfl⟩ := List.mem_map.1 member
      refine ⟨?_, rfl⟩
      show d.Refers ctx.schema (ctx.schema.typeOf objectKey)
      rw [catalog]
      rcases List.mem_append.1 inside with before | new
      · exact h.relatedObjects_refer catalog d before
      · exact List.mem_singleton.1 new ▸ refers
    have set := Entity.set_of_stores h.declared stores store
    unfold addRelated
    rw [related, Action.except_ok_bind, pushed, Action.except_ok_bind]
    exact Action.bind_run_ok set _

/-- An object that another was related to has come about as well. -/
theorem Obtained.withRelated (h : o.Obtained ctx.schema) (hOther : other.Obtained ctx.schema)
    {r : RelatedObject} (related : RelatedObject.ofEntity ctx.schema other.entity
      (some relationship) isInline = .ok r) : (o.withRelated ctx.schema r).Obtained ctx.schema := by
  refine ⟨?_, h.type⟩
  have run : (o.addRelated ctx other relationship isInline).run.run {} = _ :=
    addRelated_run catalog h hOther {}
  rw [related] at run
  have performed :
      (Request.perform ctx o.entity (.addRelated other relationship isInline)).run.run {} =
        (.ok (.changed (o.withRelated ctx.schema r).entity),
          ctx.cacheEntity (o.withRelated ctx.schema r).entity {}) := by
    rw [Request.perform, map_eq_pure_bind, Action.bind_run_ok run]
    rfl
  exact .changed h.entity performed

end

/-- What relating an object adds: the object itself, or a reference to it if it has an identifier. -/
theorem ofEntity_cases (schema : Schema) (e : Entity) (relationship : String) (isInline : Bool) :
    (isInline = false ∧ e.identifier? schema = none ∧
      RelatedObject.ofEntity schema e (some relationship) isInline =
        .error (.missingIdentifier (e.type schema).name)) ∨
    ∃ r, RelatedObject.ofEntity schema e (some relationship) isInline = .ok r ∧
      r.relationship = some relationship ∧
      ((isInline = true ∧ r.holding = .inline e) ∨
        (isInline = false ∧ ∃ s, e.identifier? schema = some s ∧ r.holding = .byReference s)) := by
  cases isInline with
  | true => exact .inr ⟨_, rfl, rfl, .inl ⟨rfl, rfl⟩⟩
  | false =>
    simp only [RelatedObject.ofEntity, RelatedObject.toReference, RelatedObject.inline,
      Entity.requireIdentifier]
    cases identified : e.identifier? schema with
    | none => exact .inl ⟨trivial, rfl, rfl⟩
    | some s => exact .inr ⟨_, rfl, rfl, .inr ⟨trivial, s, rfl, rfl⟩⟩

/-! ## All attempts -/

/-- The second object is the first with some related objects added at the end of its list, and
nothing else of it has changed. If there are any and the object has an identifier, a context that
caches has cached it as it then is; nothing else in the store has changed. -/
structure Appended (ctx : Context) (new : List RelatedObject) (before after : Object × Store) :
    Prop where
  nothing : new = [] → after = before
  items : (after.1.relatedObjects ctx.schema).items =
    (before.1.relatedObjects ctx.schema).items ++ new
  typeKey : after.1.entity.typeKey = before.1.entity.typeKey
  extras : after.1.entity.extras = before.1.entity.extras
  others : ∀ name, name ≠ "related_objects" → after.1.entity.get? name = before.1.entity.get? name
  cached : ∀ key, after.2.cache.get? key =
    if ctx.config.cacheEntities = true ∧ new ≠ [] ∧
      before.1.entity.identifier? ctx.schema = some key then some after.1.entity
    else before.2.cache.get? key
  supply : after.2.supply = before.2.supply
  journal : after.2.journal = before.2.journal

namespace Appended

variable {ctx : Context} {new more : List RelatedObject} {a b c : Object × Store}

theorem refl (ctx : Context) (a : Object × Store) : Appended ctx [] a a where
  nothing _ := rfl
  items := (List.append_nil _).symm
  typeKey := rfl
  extras := rfl
  others _ _ := rfl
  cached _ := by simp
  supply := rfl
  journal := rfl

theorem trans (h : Appended ctx new a b) (next : Appended ctx more b c)
    (own : (a.1.entity.type ctx.schema).idField ≠ some "related_objects") :
    Appended ctx (new ++ more) a c where
  nothing none := by
    obtain ⟨first, last⟩ := List.append_eq_nil_iff.1 none
    exact (next.nothing last).trans (h.nothing first)
  items := by rw [next.items, h.items, List.append_assoc]
  typeKey := next.typeKey.trans h.typeKey
  extras := next.extras.trans h.extras
  others name other := (next.others name other).trans (h.others name other)
  cached key := by
    rw [next.cached, h.cached, Entity.identifier?_congr h.typeKey h.others own]
    by_cases last : more = []
    · -- nothing has come after what was cached then
      rw [next.nothing last]
      simp [last]
    · simp only [ne_eq, last, not_false_eq_true, true_and, List.append_eq_nil_iff, and_false]
      split <;> rename_i own
      · rfl
      · rw [if_neg fun ⟨caches, _, same⟩ => own ⟨caches, same⟩]
  supply := next.supply.trans h.supply
  journal := next.journal.trans h.journal

end Appended

/-- A call that relates an object to another, in words and inline or not. -/
structure Relating where
  other : Object
  relationship : String
  isInline : Bool

namespace Relating

/-- What the call adds, if there is an identifier where one is needed. -/
def item? (schema : Schema) (call : Relating) : Option RelatedObject :=
  (RelatedObject.ofEntity schema call.other.entity (some call.relationship) call.isInline).toOption

/-- The object and the store after an attempt, which leaves both as they are if it fails. -/
def attempt (ctx : Context) (state : Object × Store) (call : Relating) : Object × Store :=
  match (state.1.addRelated ctx call.other call.relationship call.isInline).run.run state.2 with
  | (.ok changed, after) => (changed, after)
  | (.error _, after) => (state.1, after)

end Relating

/-- The object and the store after some attempts, one after the other. -/
def relateAll (ctx : Context) (calls : List Relating) (state : Object × Store) : Object × Store :=
  calls.foldl (Relating.attempt ctx) state

section

variable {ctx : Context} {o : Object}

/-- One related object more, with the object cached then. -/
theorem appended_withRelated (h : o.Obtained ctx.schema) {r : RelatedObject}
    (next : (o.withRelated ctx.schema r).Obtained ctx.schema) (store : Store) :
    Appended ctx [r] (o, store)
      (o.withRelated ctx.schema r,
        ctx.cacheEntity (o.withRelated ctx.schema r).entity store) := by
  have others : ∀ name, name ≠ "related_objects" →
      (o.withRelated ctx.schema r).entity.get? name = o.entity.get? name := by
    intro name other
    simp only [withRelated, Entity.get?, Table.get?_insert, if_neg (Ne.symm other)]
  -- the list is not the identifying field, so it is cached under the same identifier
  have identifier : (o.withRelated ctx.schema r).entity.identifier? ctx.schema =
      o.entity.identifier? ctx.schema := Entity.identifier?_congr rfl others (h.own)
  exact {
    nothing := by rintro ⟨⟩
    items := by
      rw [next.relatedObjects_eq]
      simp only [withRelated, Table.get?_insert, if_true, Option.bind_some, Value.list?,
        Option.getD_some, List.filterMap_map]
      exact List.filterMap_some
    typeKey := rfl
    extras := rfl
    others
    cached := by
      intro key
      unfold Context.cacheEntity
      by_cases caches : ctx.config.cacheEntities = true
      · simp only [if_pos caches, Cache.get?_register, identifier]
        simp [caches]
      · simp [caches]
    supply := by
      unfold Context.cacheEntity
      split <;> rfl
    journal := by
      unfold Context.cacheEntity
      split <;> rfl }

variable (catalog : ctx.schema.typeOf objectKey = objectType)

include catalog

/-- An attempt appends what it adds, or leaves everything as it is. -/
theorem attempt_appends {call : Relating} (h : o.Obtained ctx.schema)
    (hOther : call.other.Obtained ctx.schema)
    (store : Store) :
    (call.attempt ctx (o, store)).1.Obtained ctx.schema ∧
      Appended ctx (call.item? ctx.schema).toList (o, store) (call.attempt ctx (o, store)) := by
  unfold Relating.attempt Relating.item?
  rw [addRelated_run catalog h hOther store]
  cases related : RelatedObject.ofEntity ctx.schema call.other.entity (some call.relationship)
      call.isInline with
  | error e => exact ⟨h, .refl ctx _⟩
  | ok r =>
    have next := h.withRelated catalog hOther related
    exact ⟨next, appended_withRelated h next store⟩

/-- Attempts one after the other: by induction on the calls. -/
theorem relateAll_appends {calls : List Relating} (h : o.Obtained ctx.schema)
    (each : ∀ call ∈ calls, call.other.Obtained ctx.schema) (store : Store) :
    (relateAll ctx calls (o, store)).1.Obtained ctx.schema ∧
      Appended ctx (calls.filterMap (·.item? ctx.schema)) (o, store)
        (relateAll ctx calls (o, store)) := by
  induction calls generalizing o store with
  | nil => exact ⟨h, .refl ctx _⟩
  | cons call calls ih =>
    obtain ⟨first, later⟩ := List.forall_mem_cons.1 each
    obtain ⟨obtained, appended⟩ := attempt_appends catalog h first store
    obtain ⟨last, more⟩ := ih obtained later (call.attempt ctx (o, store)).2
    refine ⟨last, ?_⟩
    have whole := appended.trans more (h.own)
    rw [List.filterMap_cons]
    cases added : call.item? ctx.schema with
    | none => rwa [added] at whole
    | some r => rwa [added] at whole

/-- **Relating appends and caches.** Whatever objects have been related to an object that has come
about, in however many attempts: their items are at the end of its list in the order of the
attempts that succeeded, and the field holds that list and no more; nothing else of the object has
changed, and what is cached under its identifier is the object as it is. The next attempt fails,
changing nothing, exactly if it is for a reference to an object without an identifier; else it adds
one item, the object itself or a reference to its identifier, with the relationship given. -/
theorem addRelated_appends (h : o.Obtained ctx.schema) {calls : List Relating}
    (each : ∀ call ∈ calls, call.other.Obtained ctx.schema) (store : Store) :
    let before := relateAll ctx calls (o, store)
    Appended ctx (calls.filterMap (·.item? ctx.schema)) (o, store) before ∧
    (∀ value, Table.get? before.1.entity.values "related_objects" = some value →
      value = .list ((before.1.relatedObjects ctx.schema).items.map .related)) ∧
    ∀ call : Relating, call.other.Obtained ctx.schema →
      let run :=
        (before.1.addRelated ctx call.other call.relationship call.isInline).run.run before.2
      ((∃ e after, run = (.error e, after)) ↔
        call.isInline = false ∧ call.other.entity.identifier? ctx.schema = none) ∧
      (∀ e after, run = (.error e, after) → after = before.2) ∧
      ∀ changed after, run = (.ok changed, after) →
        ∃ r, r.relationship = some call.relationship ∧
          (call.isInline = true ∧ r.holding = .inline call.other.entity ∨
            call.isInline = false ∧ ∃ s, call.other.entity.identifier? ctx.schema = some s ∧
              r.holding = .byReference s) ∧
          Appended ctx [r] before (changed, after) := by
  intro before
  obtain ⟨obtained, appended⟩ := relateAll_appends catalog h each store
  refine ⟨appended, fun value held => (obtained.relatedObjects_stored catalog held).1,
    fun call hOther => ?_⟩
  rw [addRelated_run catalog obtained hOther before.2]
  -- all that can fail is making the item, when a reference has nothing to refer by
  rcases ofEntity_cases ctx.schema call.other.entity call.relationship call.isInline with
    ⟨reference, unidentified, failed⟩ | ⟨r, related, named, held⟩
  · rw [failed]
    refine ⟨⟨fun _ => ⟨reference, unidentified⟩, fun _ => ⟨_, _, rfl⟩⟩, ?_, ?_⟩
    · intro e after run
      exact (Prod.mk.inj run).2.symm
    · intro changed after run
      exact absurd (Prod.mk.inj run).1 (by simp)
  · rw [related]
    have next := obtained.withRelated catalog hOther related
    refine ⟨⟨?_, ?_⟩, ?_, ?_⟩
    · rintro ⟨e, after, run⟩
      exact absurd (Prod.mk.inj run).1 (by simp)
    · rintro ⟨reference, unidentified⟩
      rcases held with ⟨inline, -⟩ | ⟨-, s, identified, -⟩
      · rw [reference] at inline
        cases inline
      · rw [unidentified] at identified
        cases identified
    · intro e after run
      exact absurd (Prod.mk.inj run).1 (by simp)
    · intro changed after run
      obtain ⟨given, rfl⟩ := Prod.mk.inj run
      obtain rfl := Except.ok.inj given
      exact ⟨r, named, held, appended_withRelated obtained next before.2⟩

end

/-- An object that another has been related to by its identifier, and an attempt to relate one that
has none. -/
theorem seenObject_relates :
    let unnamed : Object := ⟨⟨objectKey, [("state", .string "seen")], []⟩⟩
    let before := relateAll Request.bareContext [⟨⟨splitObject⟩, "contains", false⟩]
      (⟨Reachable.seenObject⟩, {})
    Appended Request.bareContext
      [⟨.byReference "object--x--00000000-0000-4000-8000-000000000001", some "contains"⟩]
      (⟨Reachable.seenObject⟩, {}) before ∧
    ∃ e after, (before.1.addRelated Request.bareContext unnamed "contains" false).run.run before.2 =
      (.error e, after) := by
  have seen : Obtained Request.bareContext.schema ⟨Reachable.seenObject⟩ :=
    ⟨.reached Reachable.seenObject_made, rfl⟩
  have split : Obtained Request.bareContext.schema ⟨splitObject⟩ := ⟨splitObject_obtained, rfl⟩
  have unnamed :
      Obtained Request.bareContext.schema ⟨⟨objectKey, [("state", .string "seen")], []⟩⟩ := by
    obtain ⟨after, run⟩ : ∃ after, (Request.perform Request.bareContext splitObject
        (.ofMapping objectKey [("state", .string "seen")])).run.run {} =
          (.ok (.made ⟨objectKey, [("id", .string "object--00000000-0000-4000-8000-000000000001"),
            ("state", .string "seen")], []⟩), after) := ⟨_, rfl⟩
    exact ⟨@Dossier.Obtained.unset _ _ _ "id" _ (.made run) rfl, rfl⟩
  obtain ⟨appended, -, next⟩ := @addRelated_appends Request.bareContext _ rfl seen
    [⟨⟨splitObject⟩, "contains", false⟩] (by simpa using split) {}
  exact ⟨appended, (next ⟨_, "contains", false⟩ unnamed).1.2 ⟨rfl, rfl⟩⟩

end Catalog.Object

end Dossier
