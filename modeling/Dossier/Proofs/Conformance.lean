import Dossier.Construction.Entity

/-!
# Conformance

What an entity must be for its schema to hold of it. `LeafKind.Holds` and
`FieldKind.Holds` give the shape of a value of a kind, `Field.Stores` that of what
a field is set to, and `Entity.Fits` what the schema asks of an entity for itself.
An entity conforms if it fits and every entity nested in it does, at any depth.
-/

namespace Dossier

namespace Value

mutual

/-- The outermost entities in a value: those that are reached without passing through another. -/
def entities : Value → List Entity
  | list items => itemsEntities items
  | mapping entries => entriesEntities entries
  | entity e => [e]
  | related r => r.embedded?.toList
  | _ => []

def itemsEntities : List Value → List Entity
  | [] => []
  | item :: items => entities item ++ itemsEntities items

def entriesEntities : List (String × Value) → List Entity
  | [] => []
  | (_, value) :: entries => entities value ++ entriesEntities entries

end

/-- All of the outermost entities in a value have a property. -/
def Each (Q : Entity → Prop) (value : Value) : Prop := ∀ e ∈ value.entities, Q e

variable {Q : Entity → Prop}

theorem mem_itemsEntities {items : List Value} {e : Entity} :
    e ∈ itemsEntities items ↔ ∃ item ∈ items, e ∈ item.entities := by
  induction items with
  | nil => simp [itemsEntities]
  | cons item items ih => simp [itemsEntities, ih]

theorem mem_entriesEntities {entries : List (String × Value)} {e : Entity} :
    e ∈ entriesEntities entries ↔ ∃ entry ∈ entries, e ∈ entry.2.entities := by
  induction entries with
  | nil => simp [entriesEntities]
  | cons entry entries ih => simp [entriesEntities, ih]

theorem each_list {items : List Value} : (list items).Each Q ↔ ∀ item ∈ items, item.Each Q := by
  unfold Each
  simp only [entities, mem_itemsEntities]
  constructor
  · intro h item member e inside
    exact h e ⟨item, member, inside⟩
  · rintro h e ⟨item, member, inside⟩
    exact h item member e inside

theorem each_mapping {m : Mapping} : (mapping m).Each Q ↔ ∀ entry ∈ m, entry.2.Each Q := by
  unfold Each
  simp only [entities, mem_entriesEntities]
  constructor
  · intro h entry member e inside
    exact h e ⟨entry, member, inside⟩
  · rintro h e ⟨entry, member, inside⟩
    exact h entry member e inside

theorem each_entity {e : Entity} : (entity e).Each Q ↔ Q e := by simp [Each, entities]

theorem each_related {r : RelatedObject} :
    (related r).Each Q ↔ ∀ e, r.embedded? = some e → Q e := by
  simp [Each, entities]

end Value

namespace Mapping

/-- All of the values in a mapping have a property. -/
def All (P : Value → Prop) (m : Mapping) : Prop := ∀ entry ∈ m, P entry.2

variable {P : Value → Prop} {m : Mapping}

theorem All.get? (h : All P m) {key : String} {value : Value}
    (found : Table.get? m key = some value) : P value :=
  h _ (Table.mem_of_get? found)

theorem All.erase (h : All P m) (key : String) : All P (Table.erase m key) := by
  intro entry member
  exact h entry (Table.mem_of_mem_erase member)

/-- Putting a value in keeps the property if the value has it. -/
theorem All.insert (h : All P m) (key : String) {value : Value} (new : P value) :
    All P (Table.insert m key value) := by
  rintro ⟨other, found⟩ member
  rcases Table.mem_of_mem_insert member with ⟨-, rfl⟩ | there
  · exact new
  · exact h _ there

theorem All.mono {R : Value → Prop} (h : All P m) (weaker : ∀ value, P value → R value) :
    All R m := by
  intro entry member
  exact weaker entry.2 (h entry member)

end Mapping

namespace Entity

/-- The outermost entities in what an entity holds. -/
def nested (e : Entity) : List Entity :=
  Value.entriesEntities e.values ++ Value.entriesEntities e.extras

/-- An entity somewhere inside another. -/
inductive Within : Entity → Entity → Prop where
  | direct {d e : Entity} (h : d ∈ e.nested) : Within d e
  | deeper {d n e : Entity} (h : n ∈ e.nested) (inside : Within d n) : Within d e

theorem forall_nested {Q : Entity → Prop} {e : Entity} :
    (∀ d ∈ e.nested, Q d) ↔ Mapping.All (·.Each Q) e.values ∧ Mapping.All (·.Each Q) e.extras := by
  simp only [nested, List.mem_append, or_imp, forall_and]
  exact and_congr Value.each_mapping Value.each_mapping

end Entity

/-! ## Shapes -/

/-- The values that a kind of leaf comes to. -/
def LeafKind.Holds : LeafKind → Value → Prop
  | string, .string _ => True
  | boolean, .bool _ => True
  | integer, .integer _ => True
  | float, .number _ => True
  | timestamp, .timestamp _ => True
  | identifier allowed, .string s =>
    ∃ id, Identifier.parse? s = some id ∧ (allowed ≠ [] → id.typeName ∈ allowed)
  | dictionary, .mapping _ => True
  | _, _ => False

/-- A related object of a type, inline or by a well-formed identifier. -/
def RelatedObject.Refers (schema : Schema) (t : EntityType) (r : RelatedObject) : Prop :=
  r.embeds schema t = true ∧
  ∀ idref, r.holding = .byReference idref → (Identifier.parse? idref).isSome

/-- The values that a kind of field comes to. -/
def FieldKind.Holds (ctx : Context) : FieldKind → Value → Prop
  | leaf kind, value => kind.Holds value
  | entity type, .entity e => e.isOf ctx.schema (ctx.typeOf type) = true
  | polymorphic name, .entity e =>
    ∃ registry, ctx.registry name = .ok registry ∧
      registry.knowsType ctx.schema (e.type ctx.schema) = true
  | related type, .related r => r.Refers ctx.schema (ctx.typeOf type)
  | _, _ => False

namespace Field

/-- A single value of a field: of its kind, and let pass by its validator. -/
def Takes (ctx : Context) (f : Field) (value : Value) : Prop :=
  f.kind.Holds ctx value ∧ f.validate value = .ok ()

/-- What a field is set to: a single value, or a list of them that is not empty if the field is
required. -/
def Stores (ctx : Context) (f : Field) (value : Value) : Prop :=
  if f.isMultiple then
    ∃ items, value = .list items ∧ (f.isRequired → items ≠ []) ∧ ∀ item ∈ items, f.Takes ctx item
  else f.Takes ctx value

variable {ctx : Context} {f : Field} {value : Value}

theorem stores_multiple (multiple : f.isMultiple = true) :
    f.Stores ctx value ↔ ∃ items, value = .list items ∧ (f.isRequired → items ≠ []) ∧
      ∀ item ∈ items, f.Takes ctx item := by
  rw [Stores, if_pos multiple]

theorem stores_single (single : f.isMultiple = false) :
    f.Stores ctx value ↔ f.Takes ctx value := by
  rw [Stores, single]
  exact Iff.rfl

end Field

namespace Entity

/-- What the schema asks of an entity, leaving aside the entities nested in it. -/
structure Fits (ctx : Context) (e : Entity) : Prop where
  /-- The required fields are set. -/
  required : ∀ f ∈ (e.type ctx.schema).fields, f.isRequired → (Table.get? e.values f.name).isSome
  /-- What is stored under a name is what the field of that name stores. -/
  stored : ∀ name value, (name, value) ∈ e.values →
    ∃ f ∈ (e.type ctx.schema).fields, f.name = name ∧ f.Stores ctx value
  /-- Custom properties have names of their own. -/
  apart : ∀ name value, (name, value) ∈ e.extras → (e.type ctx.schema).field? name = none
  /-- There are custom properties only where they are kept. -/
  kept : e.extras ≠ [] → ctx.keepsExtras (e.type ctx.schema)

/-- An entity conforms if it fits and all that are nested in it conform. -/
inductive Conforms (ctx : Context) : Entity → Prop where
  | intro {e : Entity} (fits : e.Fits ctx) (nested : ∀ d ∈ e.nested, Conforms ctx d) :
    Conforms ctx e

namespace Conforms

variable {ctx : Context} {e : Entity}

theorem fits (h : e.Conforms ctx) : e.Fits ctx := by
  cases h with
  | intro fits nested => exact fits

theorem of_nested (h : e.Conforms ctx) {d : Entity} (member : d ∈ e.nested) : d.Conforms ctx := by
  cases h with
  | intro fits nested => exact nested d member

end Conforms

/-! ## Changing an entity that fits -/

namespace Fits

variable {ctx : Context} {e : Entity}

/-- Setting a field to what it stores. -/
theorem setField (h : e.Fits ctx) {f : Field} (declared : f ∈ (e.type ctx.schema).fields)
    {value : Value} (stores : f.Stores ctx value) :
    Fits ctx { e with values := Table.insert e.values f.name value } where
  required := by
    intro g member required
    show (Table.get? (Table.insert e.values f.name value) g.name).isSome
    rw [Table.get?_insert]
    split
    · rfl
    · exact h.required g member required
  stored := by
    intro name held member
    rcases Table.mem_of_mem_insert member with ⟨rfl, rfl⟩ | before
    · exact ⟨f, declared, rfl, stores⟩
    · exact h.stored name held before
  apart := h.apart
  kept := h.kept

/-- Putting in a custom property, where they are kept. -/
theorem setExtra (h : e.Fits ctx) {name : String} (value : Value)
    (undeclared : (e.type ctx.schema).field? name = none)
    (keeps : ctx.keepsExtras (e.type ctx.schema) = true) :
    Fits ctx { e with extras := Table.insert e.extras name value } where
  required := h.required
  stored := h.stored
  apart := by
    intro other held member
    rcases Table.mem_of_mem_insert member with ⟨rfl, rfl⟩ | before
    · exact undeclared
    · exact h.apart other held before
  kept := fun _ => keeps

/-- Clearing a field that is not required. -/
theorem eraseField (h : e.Fits ctx) {name : String}
    (optional : ∀ f ∈ (e.type ctx.schema).fields, f.isRequired → f.name ≠ name) :
    Fits ctx { e with values := Table.erase e.values name } where
  required := by
    intro g member required
    show (Table.get? (Table.erase e.values name) g.name).isSome
    rw [Table.get?_erase, if_neg (Ne.symm (optional g member required))]
    exact h.required g member required
  stored := fun other held member => h.stored other held (Table.mem_of_mem_erase member)
  apart := h.apart
  kept := h.kept

theorem eraseExtra (h : e.Fits ctx) (name : String) :
    Fits ctx { e with extras := Table.erase e.extras name } where
  required := h.required
  stored := h.stored
  apart := fun other held member => h.apart other held (Table.mem_of_mem_erase member)
  kept := by
    intro some
    apply h.kept
    intro none
    exact some (by rw [Table.erase, none]; rfl)

end Fits

end Entity

/-- The second context is the first with more types in its registries. -/
structure Context.GrowsTo (ctx larger : Context) : Prop where
  schema : larger.schema = ctx.schema
  config : larger.config = ctx.config
  registry : ∀ name registry, ctx.registry name = .ok registry →
    ∃ grown, larger.registry name = .ok grown ∧
      ∀ t, registry.knowsType ctx.schema t = true → grown.knowsType ctx.schema t = true

namespace Context.GrowsTo

variable {ctx larger largest : Context}

/-- A context with the registries that it had. -/
theorem of_variants (schema : larger.schema = ctx.schema) (config : larger.config = ctx.config)
    (variants : larger.variants = ctx.variants) : ctx.GrowsTo larger where
  schema := schema
  config := config
  registry name registry found :=
    ⟨registry, by rwa [Context.registry, variants], fun _ known => known⟩

/-- A context with one registry put in, which knows the types of the one that it replaces. -/
theorem of_insert {name : String} {new : Registry} (schema : larger.schema = ctx.schema)
    (config : larger.config = ctx.config) (variants : larger.variants = ctx.variants.insert name new)
    (keeps : ∀ old, ctx.registry name = .ok old →
      ∀ t, old.knowsType ctx.schema t = true → new.knowsType ctx.schema t = true) :
    ctx.GrowsTo larger where
  schema := schema
  config := config
  registry other registry found := by
    by_cases same : name = other
    · subst same
      exact ⟨new, by simp [Context.registry, variants], keeps registry found⟩
    · -- the other registries are what they were
      refine ⟨registry, ?_, fun _ known => known⟩
      simpa [Context.registry, variants, same] using found

theorem refl (ctx : Context) : ctx.GrowsTo ctx := of_variants rfl rfl rfl

theorem trans (first : ctx.GrowsTo larger) (second : larger.GrowsTo largest) :
    ctx.GrowsTo largest where
  schema := second.schema.trans first.schema
  config := second.config.trans first.config
  registry name registry found := by
    obtain ⟨grown, there, more⟩ := first.registry name registry found
    obtain ⟨last, found, still⟩ := second.registry name grown there
    rw [first.schema] at still
    exact ⟨last, found, fun t known => still t (more t known)⟩

/-! What holds in a context holds when its registries have grown. -/

theorem typeOf (grows : ctx.GrowsTo larger) : larger.typeOf = ctx.typeOf := by
  unfold Context.typeOf
  rw [grows.schema]

theorem holds (grows : ctx.GrowsTo larger) {kind : FieldKind} {value : Value}
    (h : kind.Holds ctx value) : kind.Holds larger value := by
  cases kind with
  | leaf kind => exact h
  | entity type =>
    cases value with
    | entity e =>
      show e.isOf larger.schema (larger.typeOf type) = true
      rw [grows.schema, grows.typeOf]
      exact h
    | _ => exact h
  | polymorphic name =>
    cases value with
    | entity e =>
      obtain ⟨registry, found, known⟩ := h
      obtain ⟨grown, there, more⟩ := grows.registry name registry found
      refine ⟨grown, there, ?_⟩
      rw [grows.schema]
      exact more _ known
    | _ => exact h
  | related type =>
    cases value with
    | related r =>
      show r.Refers larger.schema (larger.typeOf type)
      rw [grows.schema, grows.typeOf]
      exact h
    | _ => exact h

theorem stores (grows : ctx.GrowsTo larger) {f : Field} {value : Value} (h : f.Stores ctx value) :
    f.Stores larger value := by
  cases multiple : f.isMultiple with
  | true =>
    obtain ⟨items, same, some, each⟩ := (Field.stores_multiple multiple).1 h
    exact (Field.stores_multiple multiple).2 ⟨items, same, some, fun item member =>
      ⟨grows.holds (each item member).1, (each item member).2⟩⟩
  | false =>
    obtain ⟨shape, valid⟩ := (Field.stores_single multiple).1 h
    exact (Field.stores_single multiple).2 ⟨grows.holds shape, valid⟩

theorem fits (grows : ctx.GrowsTo larger) {e : Entity} (h : e.Fits ctx) : e.Fits larger where
  required := by
    rw [grows.schema]
    exact h.required
  stored := by
    rw [grows.schema]
    intro name value member
    obtain ⟨f, declared, same, stores⟩ := h.stored name value member
    exact ⟨f, declared, same, grows.stores stores⟩
  apart := by
    rw [grows.schema]
    exact h.apart
  kept := by
    unfold Context.keepsExtras
    rw [grows.schema, grows.config]
    exact h.kept

theorem conforms (grows : ctx.GrowsTo larger) {e : Entity} (h : e.Conforms ctx) :
    e.Conforms larger := by
  induction h with
  | intro fits _ ih => exact ⟨grows.fits fits, ih⟩

end Context.GrowsTo

theorem Registry.register_knowsType {registry grown : Registry} {tag : String} {type : TypeKey}
    (registered : registry.register tag type = .ok grown) {schema : Schema} {t : EntityType}
    (known : registry.knowsType schema t = true) : grown.knowsType schema t = true := by
  unfold register at registered
  split at registered
  · exact absurd registered (by simp)
  · next absent =>
    have none : registry.entries.get? tag = none := by simpa [Table.contains] using absent
    obtain rfl := Except.ok.inj registered
    unfold knowsType at known ⊢
    rw [Table.insert_of_absent (Table.get?_eq_none_iff.1 none), List.any_append, known]
    rfl

namespace Registration

theorem registerNames_grows (type : TypeKey) (ctx : Context) :
    ctx.GrowsTo ((registerNames type).run.run ctx).2 :=
  .of_variants rfl rfl rfl

/-- Making a type known to documents: its tag must not be bound. -/
theorem registerType_run (type : TypeKey) (ctx : Context) :
    (registerType type).run.run ctx =
      match ctx.types.register (ctx.typeOf type).typeName type with
      | .error e => (.error e, ctx)
      | .ok types => (registerNames type).run.run { ctx with types } := by
  have run : (registerType type).run.run ctx = (do
      let types ← ctx.types.register (ctx.typeOf type).typeName type
      set { ctx with types }
      registerNames type : Registration Unit).run.run ctx := rfl
  rw [run]
  cases ctx.types.register (ctx.typeOf type).typeName type <;> rfl

/-- Registering a type fails and changes nothing, or puts in the types of documents with it. -/
theorem registerType_cases (type : TypeKey) (ctx : Context) :
    ((registerType type).run.run ctx).2 = ctx ∨
      ∃ types, ((registerType type).run.run ctx).2 =
        ((registerNames type).run.run { ctx with types }).2 := by
  rw [registerType_run]
  cases ctx.types.register (ctx.typeOf type).typeName type with
  | ok types => exact .inr ⟨types, rfl⟩
  | error e => exact .inl rfl

theorem registerType_grows (type : TypeKey) (ctx : Context) :
    ctx.GrowsTo ((registerType type).run.run ctx).2 := by
  rcases registerType_cases type ctx with same | ⟨types, run⟩
  · rw [same]
    exact .refl ctx
  · rw [run]
    exact .of_variants rfl rfl rfl

theorem defineRegistry_grows (name key : String) (ctx : Context) :
    ctx.GrowsTo ((defineRegistry name key).run.run ctx).2 := by
  show ctx.GrowsTo (if ctx.variants.contains name then ctx
    else { ctx with variants := ctx.variants.insert name { name, key } })
  split
  · exact .refl ctx
  · next absent =>
    -- there is no registry of the name that could have known a type
    refine .of_insert rfl rfl rfl fun old found => ?_
    have none : ctx.variants.get? name = none := by simpa [Table.contains] using absent
    rw [Context.registry, none] at found
    exact absurd found (by simp)

/-- Adding a type to a registry: there must be one, and it must not have the tag. -/
theorem registerTagged_run (name tag : String) (type : TypeKey) (ctx : Context) :
    (registerTagged name tag type).run.run ctx =
      match ctx.registry name with
      | .error e => (.error e, ctx)
      | .ok old =>
        match old.register tag type with
        | .error e => (.error e, ctx)
        | .ok new => (registerNames type).run.run
            { ctx with variants := ctx.variants.insert name new } := by
  have run : (registerTagged name tag type).run.run ctx = (do
      let entries ← (← ctx.registry name).register tag type
      set { ctx with variants := ctx.variants.insert name entries }
      registerNames type : Registration Unit).run.run ctx := rfl
  rw [run]
  cases ctx.registry name with
  | error e => rfl
  | ok old =>
    have found : (do
        let entries ← (← (Except.ok old : Except EntityError Registry)).register tag type
        set { ctx with variants := ctx.variants.insert name entries }
        registerNames type : Registration Unit).run.run ctx = (do
          let entries ← old.register tag type
          set { ctx with variants := ctx.variants.insert name entries }
          registerNames type : Registration Unit).run.run ctx := rfl
    rw [found]
    dsimp only
    cases old.register tag type <;> rfl

/-- Adding a type to a registry fails and changes nothing, or puts in the registry with it. -/
theorem registerTagged_cases (name tag : String) (type : TypeKey) (ctx : Context) :
    ((registerTagged name tag type).run.run ctx).2 = ctx ∨
      ∃ old new, ctx.registry name = .ok old ∧ old.register tag type = .ok new ∧
        ((registerTagged name tag type).run.run ctx).2 =
          ((registerNames type).run.run
            { ctx with variants := ctx.variants.insert name new }).2 := by
  rw [registerTagged_run]
  cases found : ctx.registry name with
  | error e => exact .inl rfl
  | ok old =>
    dsimp only
    cases registered : old.register tag type with
    | error e => exact .inl rfl
    | ok new => exact .inr ⟨old, new, rfl, registered, rfl⟩

theorem registerTagged_grows (registry tag : String) (type : TypeKey) (ctx : Context) :
    ctx.GrowsTo ((registerTagged registry tag type).run.run ctx).2 := by
  rcases registerTagged_cases registry tag type ctx with same | ⟨old, new, found, registered, run⟩
  · rw [same]
    exact .refl ctx
  · rw [run]
    refine .trans ?_ (registerNames_grows type _)
    refine .of_insert rfl rfl rfl fun replaced there t known => ?_
    obtain rfl := Except.ok.inj (found.symm.trans there)
    exact Registry.register_knowsType registered known

end Registration

end Dossier
