import Dossier.Catalog.Types
import Dossier.Proofs.Settled

/-!
# The registered catalog

What a context knows once the catalog has been registered and nothing else: the
two registries of properties, and the names of the catalog's types. Those types
are faithful, so what is built of documents is settled (`Catalog.Setting.faithful`).
-/

namespace Dossier

namespace Catalog

/-- A context for the catalog's types in which nothing is registered yet. -/
structure Unregistered (ctx : Context) : Prop where
  schema : ∃ extension, ctx.schema = Catalog.schema extension
  types : ctx.types = { name := "types", key := "type" }
  names : ctx.names = []
  variants : ctx.variants = []

/-- A context with the catalog registered, and nothing else. -/
def Registered (ctx : Context) : Prop :=
  ∃ base, Unregistered base ∧ register.run.run base = (.ok (), ctx)

/-- The key is one of the catalog's. -/
def Known (key : TypeKey) : Prop := key ∈ types.map (·.1)

instance : DecidablePred Known := fun key => inferInstanceAs (Decidable (key ∈ types.map (·.1)))

/-- The registries of the polymorphic fields, as registration leaves them. -/
def registries : Table Registry :=
  [(objectProperties, ⟨objectProperties, propertiesTag, propertyTypes⟩),
    (domainSpecificProperties, ⟨domainSpecificProperties, propertiesTag, []⟩)]

/-- What registration comes to. -/
theorem register_run {base : Context} (h : Unregistered base) :
    ∃ names : Table TypeKey, (∀ entry ∈ names, Known entry.2) ∧
      register.run.run base = (.ok (), { base with
        types := ⟨"types", "type", [("grouping", groupingKey)]⟩, names, variants := registries }) := by
  obtain ⟨schema, config, codec, ids, clock, hooks, types, names, variants⟩ := base
  obtain ⟨⟨extension, rfl⟩, rfl, rfl, rfl⟩ := h
  refine ⟨[("Grouping", groupingKey), ("grouping", groupingKey), ("Object", objectKey),
    ("object", objectKey), ("Address", addressKey), ("address", addressKey), ("File", fileKey),
    ("file", fileKey), ("URI", uriKey), ("uri", uriKey)], ?_, rfl⟩
  decide

/-- What is known of a context with the catalog registered. -/
structure Setting (ctx : Context) : Prop where
  schema : ∃ extension, ctx.schema = Catalog.schema extension
  types : ctx.types.entries = [("grouping", groupingKey)]
  names : ∀ entry ∈ ctx.names, Known entry.2
  variants : ctx.variants = registries

theorem Registered.setting {ctx : Context} (h : Registered ctx) : Setting ctx := by
  obtain ⟨base, bare, run⟩ := h
  obtain ⟨names, known, outcome⟩ := register_run bare
  obtain ⟨-, rfl⟩ := Prod.mk.inj (outcome.symm.trans run)
  exact ⟨bare.schema, rfl, known, rfl⟩

/-! ## The types are faithful -/

/-- The kinds of the catalog's fields: numbers are integers, and entities are of the catalog. -/
def usesKind : FieldKind → Bool
  | .leaf kind => kind ≠ .float
  | .entity _ => false
  | .polymorphic name => name = objectProperties ∨ name = domainSpecificProperties
  | .related type => type = objectKey

theorem usesKind_of_mem : ∀ entry ∈ types, ∀ f ∈ entry.2.fields, usesKind f.kind = true := by
  decide

theorem isOpen_of_mem : ∀ entry ∈ types, entry.2.isOpen = false := by decide

theorem sureDefaults_of_mem :
    ∀ entry ∈ types, EntityType.sureDefaults [] entry.2.fields = true := by decide

theorem hook_of_mem : ∀ entry ∈ types, ∀ f ∈ entry.2.fields,
    f.hook = none ∨ f.hook = some .cacheEntity := by decide

/-- The catalog's types are told apart. -/
theorem key_eq_of_sameAs : ∀ a ∈ types, ∀ b ∈ types, a.2.sameAs b.2 = true → a.1 = b.1 := by
  decide

theorem objectType_embeddable : objectType.Embeddable where
  apart := by
    intro key reserved
    have untagged : objectType.separateTag? = none := rfl
    refine ⟨?_, ?_⟩
    · revert key
      decide
    · intro tag separate
      rw [untagged] at separate
      cases separate
  nonempty := ⟨.identifier "id" "object", by simp [objectType], .inr rfl⟩

section Faithful

variable {ctx : Context}

/-- Keys of the catalog stand for the catalog's types, whatever the extension is. -/
theorem typeOf_mem (schema : ∃ extension, ctx.schema = Catalog.schema extension) {key : TypeKey}
    (known : Known key) : (key, ctx.typeOf key) ∈ Catalog.types := by
  obtain ⟨extension, same⟩ := schema
  obtain ⟨entry, member, rfl⟩ := List.mem_map.1 known
  have type : ctx.typeOf entry.1 = entry.2 := by
    rw [Context.typeOf, same]
    simp only [Catalog.types, List.mem_cons, List.not_mem_nil, or_false] at member
    rcases member with rfl | rfl | rfl | rfl | rfl <;> rfl
  rwa [type]

theorem typeOf_object (schema : ∃ extension, ctx.schema = Catalog.schema extension) :
    ctx.typeOf objectKey = objectType := by
  obtain ⟨extension, same⟩ := schema
  rw [Context.typeOf, same]
  rfl

theorem Setting.typeOf (h : Setting ctx) {key : TypeKey} (known : Known key) :
    (key, ctx.typeOf key) ∈ Catalog.types :=
  typeOf_mem h.schema known

theorem Setting.typeOf_object (h : Setting ctx) : ctx.typeOf objectKey = objectType :=
  Catalog.typeOf_object h.schema

theorem Setting.registry (h : Setting ctx) {name : String} {registry : Registry}
    (found : ctx.registry name = .ok registry) :
    registry = ⟨objectProperties, propertiesTag, propertyTypes⟩ ∨ registry.entries = [] := by
  unfold Context.registry at found
  rw [h.variants] at found
  split at found
  · next there =>
    cases found
    have member := Table.mem_of_get? there
    simp only [registries, List.mem_cons, List.not_mem_nil, or_false, Prod.mk.injEq] at member
    rcases member with ⟨-, rfl⟩ | ⟨-, rfl⟩
    · exact .inl rfl
    · exact .inr rfl
  · cases found

/-- The properties are known under their tags, which they are written with. -/
theorem Setting.tagged (h : Setting ctx) {tag : String} {type : TypeKey}
    (member : (tag, type) ∈ propertyTypes) :
    Known type ∧ Table.get? propertyTypes tag = some type ∧
      (ctx.typeOf type).separateTag? = some ⟨propertiesTag, tag⟩ := by
  have properties : ∀ entry ∈ propertyTypes, Known entry.2 ∧
      Table.get? propertyTypes entry.1 = some entry.2 := by
    decide
  have written : ∀ entry ∈ propertyTypes, ∀ other ∈ Catalog.types, other.1 = entry.2 →
      other.2.separateTag? = some ⟨propertiesTag, entry.1⟩ := by decide
  obtain ⟨known, found⟩ := properties _ member
  exact ⟨known, found, written _ member _ (h.typeOf known) rfl⟩

/-- Fields of the catalog's types ask for objects and their properties. -/
theorem Setting.asks (h : Setting ctx) {T : TypeKey → Prop} (object : T objectKey)
    (properties : ∀ entry ∈ propertyTypes, T entry.2) {key : TypeKey} (known : Known key) {f : Field}
    (declared : f ∈ (ctx.typeOf key).fields) : f.Asks ctx T := by
  have uses := usesKind_of_mem _ (h.typeOf known) f declared
  unfold Field.Asks
  split
  · trivial
  · next kind =>
    rw [kind] at uses
    exact absurd uses (by simp [usesKind])
  · next type kind =>
    rw [kind] at uses
    obtain rfl : type = objectKey := by simpa [usesKind] using uses
    exact object
  · intro registry found tag type picked
    -- only the first registry picks anything
    rcases h.registry found with rfl | empty
    · exact properties _ (Table.mem_of_get? picked)
    · rw [Registry.get?, empty] at picked
      exact absurd picked (by simp)

/-- A type of the catalog is faithful where custom properties are not kept. -/
theorem Setting.faithful_typeOf (h : Setting ctx)
    (plain : ctx.config.allowCustomProperties = false) {key : TypeKey} (known : Known key) :
    (ctx.typeOf key).Faithful ctx Known where
  closed := by
    rw [Context.keepsExtras, isOpen_of_mem _ (h.typeOf known), plain]
    rfl
  asks _ declared := h.asks (by decide) (by decide) known declared
  exact := by
    intro f declared kind
    have uses := usesKind_of_mem _ (h.typeOf known) f declared
    rw [kind] at uses
    exact absurd uses (by decide)
  sure := sureDefaults_of_mem _ (h.typeOf known)
  caching := by
    intro f declared hook hooked
    rcases hook_of_mem _ (h.typeOf known) f declared with none | caching
    · rw [hooked] at none
      cases none
    · rw [hooked] at caching
      exact Option.some.inj caching
  tagged := by
    intro f declared name kind registry found tag type member
    -- other registries were made empty, and have no tag to look up
    rcases h.registry found with rfl | empty
    · exact (h.tagged member).2
    · rw [empty] at member
      exact absurd member List.not_mem_nil
  embeddable := by
    intro f declared type kind
    have uses := usesKind_of_mem _ (h.typeOf known) f declared
    rw [kind] at uses
    obtain rfl : type = objectKey := by simpa [usesKind] using uses
    rw [h.typeOf_object]
    exact objectType_embeddable

/-- **The catalog's types are faithful** where custom properties are not kept. -/
theorem Setting.faithful (h : Setting ctx) (plain : ctx.config.allowCustomProperties = false) :
    ctx.Faithful Known where
  types := by
    intro key known
    exact h.faithful_typeOf plain known
  apart := by
    intro a b knownA knownB same
    exact key_eq_of_sameAs _ (h.typeOf knownA) _ (h.typeOf knownB) same

end Faithful

end Catalog

end Dossier
