import Dossier.Proofs.CatalogTypes
import Dossier.Proofs.Reparsing
import Dossier.Proofs.RoundTrip

/-!
# The round trip of texts with the catalog

Where the catalog is registered, on its own or with further types, what has been
parsed of a text as an object is serialized to a text that is parsed as the same
entity, if it nests no deeper than the reader goes and the reader gets its numbers
right (`Catalog.parseAs_serialize`). Some do nest too deep once they are written, and
some numbers are read back as others (`Catalog.output_refused`).
-/

namespace Dossier.Catalog

/-- The registry looks types up under the catalog's tag, which they do not declare. -/
structure Tagged (schema : Schema) (registry : Registry) : Prop where
  key : registry.key = propertiesTag
  undeclared : ∀ tag type, registry.get? tag = some type →
    (schema.typeOf type).field? propertiesTag = none

theorem Tagged.register {schema : Schema} {old new : Registry} (h : Tagged schema old) {tag : String}
    {type : TypeKey} (undeclared : (schema.typeOf type).field? propertiesTag = none)
    (registered : old.register tag type = .ok new) : Tagged schema new := by
  unfold Registry.register at registered
  split at registered
  · cases registered
  · cases registered
    refine ⟨h.key, fun other picked found => ?_⟩
    rw [Registry.get?, Table.get?_insert] at found
    split at found
    · cases found
      exact undeclared
    · exact h.undeclared other picked found

/-- A context for the catalog's types, perhaps among others, with both registries of properties. -/
structure Equipped (ctx : Context) : Prop where
  schema : ∃ extension, ctx.schema = Catalog.schema extension
  tagged : ∀ name ∈ [objectProperties, domainSpecificProperties],
    ∃ registry, ctx.registry name = .ok registry ∧ Tagged ctx.schema registry

theorem undeclared_of_known {ctx : Context}
    (schema : ∃ extension, ctx.schema = Catalog.schema extension) {key : TypeKey}
    (known : Known key) : (ctx.typeOf key).field? propertiesTag = none := by
  have each : ∀ entry ∈ types, entry.2.field? propertiesTag = none := by decide
  exact each _ (typeOf_mem schema known)

/-- Registering the catalog equips a context. -/
theorem Registered.equipped {ctx : Context} (h : Registered ctx) : Equipped ctx where
  schema := h.setting.schema
  tagged := by
    have properties : ∀ entry ∈ registries, entry.2.key = propertiesTag ∧
        ∀ picked ∈ entry.2.entries, Known picked.2 := by decide
    intro name property
    obtain ⟨registry, found⟩ : ∃ registry, Table.get? registries name = some registry := by
      simp only [List.mem_cons, List.not_mem_nil, or_false] at property
      rcases property with rfl | rfl <;> exact ⟨_, rfl⟩
    obtain ⟨key, entries⟩ := properties _ (Table.mem_of_get? found)
    refine ⟨registry, ?_, key, fun tag type picked => ?_⟩
    · rw [Context.registry, h.setting.variants, found]
    · exact undeclared_of_known h.setting.schema (entries _ (Table.mem_of_get? picked))

namespace Equipped

variable {ctx : Context}

theorem withConfig (h : Equipped ctx) (config : Config) : Equipped (ctx.withConfig config) :=
  ⟨h.schema, h.tagged⟩

theorem of_variants (h : Equipped ctx) {other : Context} (schema : other.schema = ctx.schema)
    (variants : other.variants = ctx.variants) : Equipped other where
  schema := schema ▸ h.schema
  tagged := by
    unfold Context.registry
    rw [schema, variants]
    exact h.tagged

/-- With one registry put in. -/
theorem insert (h : Equipped ctx) {name : String} {registry : Registry}
    (tagged : name ∈ [objectProperties, domainSpecificProperties] → Tagged ctx.schema registry) :
    Equipped { ctx with variants := ctx.variants.insert name registry } where
  schema := h.schema
  tagged := by
    intro other property
    by_cases same : name = other
    · subst same
      exact ⟨registry, by simp [Context.registry], tagged property⟩
    · obtain ⟨old, found, tagged⟩ := h.tagged other property
      refine ⟨old, ?_, tagged⟩
      rw [← found]
      simp [Context.registry, same]

/-- Registering types and registries leaves a context equipped, if the types that are put under tags
do not declare the key of the catalog's tag. -/
theorem after (h : Equipped ctx) {enrolment : Enrolment}
    (undeclared : ∀ name tag key, enrolment = .tagged name tag key →
      (ctx.typeOf key).field? propertiesTag = none) : Equipped (enrolment.after ctx) := by
  cases enrolment with
  | names key => exact h.of_variants rfl rfl
  | type key =>
    show Equipped ((Registration.registerType key).run.run ctx).2
    rcases Registration.registerType_cases key ctx with same | ⟨types, run⟩
    · rw [same]
      exact h
    · rw [run]
      exact h.of_variants rfl rfl
  | registry name tagKey =>
    show Equipped (if ctx.variants.contains name then ctx
      else { ctx with variants := ctx.variants.insert name { name, key := tagKey } })
    split
    · exact h
    · next absent =>
      refine h.insert fun property => ?_
      obtain ⟨old, found, -⟩ := h.tagged name property
      -- the registries of the catalog are there, so this one is not among them
      have none : ctx.variants.get? name = none := by simpa [Table.contains] using absent
      rw [Context.registry, none] at found
      cases found
  | tagged name tag key =>
    show Equipped ((Registration.registerTagged name tag key).run.run ctx).2
    rcases Registration.registerTagged_cases name tag key ctx with
      same | ⟨old, new, found, registered, run⟩
    · rw [same]
      exact h
    · rw [run]
      refine Equipped.of_variants (h.insert fun property => ?_) rfl rfl
      obtain ⟨known, there, tagged⟩ := h.tagged name property
      obtain rfl := Except.ok.inj (found.symm.trans there)
      exact tagged.register (undeclared name tag key rfl) registered

/-- The types of the catalog are tame. -/
theorem tame_of_known (h : Equipped ctx) {key : TypeKey} (known : Known key) :
    (ctx.typeOf key).Tame ctx where
  picked := by
    intro f declared name kind registry found tag type picked
    have uses := usesKind_of_mem _ (typeOf_mem h.schema known) f declared
    rw [kind] at uses
    obtain ⟨tagged, there, key, undeclared⟩ := h.tagged name (by simpa [usesKind] using uses)
    obtain rfl := Except.ok.inj (found.symm.trans there)
    rw [key]
    exact undeclared tag type picked
  embedded := by
    intro f declared type kind
    have uses := usesKind_of_mem _ (typeOf_mem h.schema known) f declared
    rw [kind] at uses
    obtain rfl : type = objectKey := by simpa [usesKind] using uses
    rw [typeOf_object h.schema]
    exact objectType_embeddable.apart
  defaulted := by
    have leaves : ∀ entry ∈ types, ∀ f ∈ entry.2.fields, f.default?.isSome →
        f.kind.isLeaf = true := by decide
    intro f declared defaulted
    exact FieldKind.eq_leaf (leaves _ (typeOf_mem h.schema known) f declared defaulted)

end Equipped

/-! ## Objects and their properties -/

/-- The key is that of objects, or of one of the catalog's types of properties. -/
def Observed (key : TypeKey) : Prop := key ∈ [objectKey, addressKey, fileKey, uriKey]

instance : DecidablePred Observed := fun key =>
  inferInstanceAs (Decidable (key ∈ [objectKey, addressKey, fileKey, uriKey]))

theorem Observed.known {key : TypeKey} (h : Observed key) : Known key := by
  have each : ∀ key ∈ [objectKey, addressKey, fileKey, uriKey], Known key := by decide
  exact each key h

/-- Nothing of objects and their properties is lost in writing. -/
theorem Equipped.clear {ctx : Context} (h : Equipped ctx) {e : Entity}
    (observed : Observed e.typeKey) : e.Clear ctx where
  tame := h.tame_of_known observed.known
  written := by
    have lossless : ∀ entry ∈ types, Observed entry.1 → entry.2.isLossless = true := by decide
    exact .inl (lossless _ (typeOf_mem h.schema observed.known) observed)
  undeferred := by
    have prompt : ∀ entry ∈ types, ∀ f ∈ entry.2.fields,
        f.default?.all (!·.isDeferred) = true := by decide
    intro before f after split unset default given deferred
    have declared : f ∈ (e.type ctx.schema).fields := by simp [split]
    have none := prompt _ (typeOf_mem h.schema observed.known) f declared
    rw [given, Option.all_some, deferred] at none
    cases none

/-- What is built of such types has only entities of such types in it. -/
theorem Setting.build_observed {ctx : Context} (h : Setting ctx) :
    ctx.build.Makes Observed (·.Each (Entity.Throughout (Observed ·.typeKey)))
      (Entity.Throughout (Observed ·.typeKey)) := by
  have carries := Value.carries_each (Entity.Throughout (Observed ·.typeKey))
  refine Context.build_carries carries.conveys
    (fun type observed f => h.asks (by decide) (by decide) observed.known)
    (fun type observed f declared default given => ?_) fun e observed _ values extras => ?_
  · have sure := sureDefaults_of_mem _ (h.typeOf observed.known)
    obtain ⟨_, sure⟩ := EntityType.isSure_of_mem sure declared given
    exact Default.offers_of_isSure carries sure
  · exact .intro observed (Entity.forall_nested.2 ⟨values, extras⟩)

/-- Where nothing but the catalog is registered, what is parsed as an object has no entities of other
types in it. -/
theorem Setting.parseAs_observed {ctx : Context} (h : Setting ctx) {indent : Nat}
    (codec : ctx.codec = .json indent) {typeName : String}
    (named : ctx.typeNamed typeName = .ok objectKey) (encoded : String) :
    ((Document.text encoded).parseAs ctx typeName).Ensures
      (Entity.Throughout (Observed ·.typeKey)) := by
  refine Document.parseAs_ensures codec (fun type same m plain => ?_) encoded
  obtain rfl := Except.ok.inj (named.symm.trans same)
  have each : Mapping.All (·.Each (Entity.Throughout (Observed ·.typeKey))) m := by
    cases plain with
    | mapping _ each => exact fun entry member => (each entry member).each
  exact (h.build_observed objectKey (by decide) m each).mono fun e => And.right

/-- **The round trip of texts.** What has been parsed of a text, with objects and their properties in
it and no other entities but clear ones, is serialized. If the reader reads the numbers back that
are written, then the text is parsed as the same entity, or refused if it nests too deep. -/
theorem parseAs_serialize {ctx : Context} (equipped : Equipped ctx) {indent : Nat}
    (codec : ctx.codec = .json indent) {typeName encoded : String} {store after : Store}
    {e : Entity} (run : ((Document.text encoded).parseAs ctx typeName).run.run store = (.ok e, after))
    (clear : e.Throughout fun d => Observed d.typeKey ∨ d.Clear ctx)
    (stable : (e.toJson ctx.schema).Stable) (pretty : Bool) :
    e.same ctx.schema e = true ∧ ∃ serialized, ctx.serialize e pretty = .ok serialized ∧
      ∀ later,
        ((e.toJson ctx.schema).nesting ≤ Json.maxDepth → ∃ last,
          ((Document.text serialized).parseAs ctx typeName).run.run later = (.ok e, last)) ∧
        (Json.maxDepth < (e.toJson ctx.schema).nesting →
          ((Document.text serialized).parseAs ctx typeName).run.run later =
            (.error .malformedText, later)) := by
  refine Document.parseAs_output codec run (clear.mono fun d => ?_) stable pretty
  rintro (observed | clear)
  · exact equipped.clear observed
  · exact clear

/-! An object with another related to it, which is in no list in the document. -/

def uriDocument : Json := .object [("xsi:type", .string "URIObjectType"), ("value", .string "here")]

def linkDocument : Json :=
  .object
    [("id", .string "object--00000000-0000-4000-8000-000000000002"), ("properties", uriDocument),
      ("relationship", .string "has")]

def linkedSiteDocument : Json :=
  .object
    [("id", .string "object--00000000-0000-4000-8000-000000000001"), ("state", .string "seen"),
      ("related_objects", linkDocument)]

theorem linkedSiteDocument_keysDistinct : linkedSiteDocument.KeysDistinct := by
  have uri : uriDocument.KeysDistinct := .object (by decide) (by simp [Json.KeysDistinct.string])
  have link : linkDocument.KeysDistinct :=
    .object (by decide) (by simp [Json.KeysDistinct.string, uri])
  exact .object (by decide) (by simp [Json.KeysDistinct.string, link])

theorem linkDocument_stable : linkDocument.Stable := by simp [linkDocument, uriDocument]

theorem linkedSite_parsed : ∃ after,
    ((Document.text linkedSiteDocument.compact).parseAs countingContext "Object").run.run {} =
      (.ok linkedSite, after) := by
  have stable : linkedSiteDocument.Stable := by simp [linkedSiteDocument, linkDocument_stable]
  have read : Json.parse? linkedSiteDocument.compact = some linkedSiteDocument :=
    Json.parse?_render Json.Layout.blanks_compact linkedSiteDocument_keysDistinct stable
  rw [Document.parseAs, Document.toMapping_text rfl, read]
  exact ⟨_, rfl⟩

/-- It is parsed, serialized and parsed again. -/
theorem linkedSite_reparsed :
    ∃ serialized, countingContext.serialize linkedSite true = .ok serialized ∧ ∀ later, ∃ last,
      ((Document.text serialized).parseAs countingContext "Object").run.run later =
        (.ok linkedSite, last) := by
  obtain ⟨after, run⟩ := linkedSite_parsed
  have observed := countingContext_registered.setting.parseAs_observed rfl rfl _ _ _ _ run
  have stable : (linkedSite.toJson countingContext.schema).Stable := by
    have written : linkedSite.toJson countingContext.schema = .object
        [("id", .string "object--00000000-0000-4000-8000-000000000001"),
          ("state", .string "seen"), ("related_objects", .array [linkDocument])] := rfl
    simp [written, linkDocument_stable]
  obtain ⟨-, serialized, done, parsed⟩ := parseAs_serialize countingContext_registered.equipped rfl
    run (observed.mono fun _ => .inl) stable true
  exact ⟨serialized, done, fun later => (parsed later).1 (by decide)⟩

/-! ## Numbers that are not read back -/

/-- The text of an object with a number in it. -/
def measuredFile : String :=
  "\x7b\"id\":\"object--00000000-0000-4000-8000-000000000007\",\"properties\":\x7b\"xsi:type\":\"FileObjectType\",\"hashes\":\x7b\"x\":0.99622830388368595\x7d\x7d\x7d"

def rewrittenFile : String :=
  "\x7b\"id\":\"object--00000000-0000-4000-8000-000000000007\",\"properties\":\x7b\"xsi:type\":\"FileObjectType\",\"hashes\":\x7b\"x\":0.9962283038836859\x7d\x7d\x7d"

/-- Whether an entity is written as a text, but another than what is read of the text. -/
def altered (schema : Schema) (text : String) : Except EntityError Entity →
    Except EntityError Entity → Bool
  | .ok e, .ok again =>
    decide ((e.toJson schema).chars .compact 0 = text.toList) && !again.same schema e
  | _, _ => false

theorem exists_of_altered {ctx : Context} {indent : Nat} (codec : ctx.codec = .json indent)
    {text : String} {first second : Except EntityError Entity × Store}
    (h : altered ctx.schema text first.1 second.1 = true) :
    ∃ e again after last, first = (.ok e, after) ∧ ctx.serialize e false = .ok text ∧
      second = (.ok again, last) ∧ again.same ctx.schema e = false := by
  obtain ⟨_ | e, after⟩ := first <;> obtain ⟨_ | again, last⟩ := second <;>
    simp only [altered, Bool.false_eq_true, Bool.and_eq_true, decide_eq_true_eq,
      Bool.not_eq_true'] at h
  refine ⟨e, again, after, last, rfl, ?_, rfl, h.2⟩
  rw [Context.serialize, codec]
  show Except.ok (String.ofList _) = _
  exact congrArg Except.ok ((congrArg String.ofList h.1).trans String.ofList_toList)

set_option maxRecDepth 4000 in
theorem measuredFile_read :
    altered countingContext.schema rewrittenFile
      (((Document.text measuredFile).parseAs countingContext "Object").run.run {}).1
      (((Document.text rewrittenFile).parseAs countingContext "Object").run.run {}).1 = true := by
  decide +kernel

/-! ## Documents that nest deeper once written -/

/-- Objects that nest, one in another. -/
def tower : Nat → Json
  | 0 => .object []
  | n + 1 => .object [("x", tower n)]

theorem tower_nesting (n : Nat) : (tower n).nesting = n + 1 := by
  induction n with
  | zero => rfl
  | succ n ih => simp [tower, Json.nesting, Json.entriesNesting, ih]

theorem tower_keysDistinct (n : Nat) : (tower n).KeysDistinct := by
  induction n with
  | zero => exact .object (by decide) (List.forall_mem_nil _)
  | succ n ih => exact .object (List.pairwise_singleton _ _) (List.forall_mem_singleton.2 ih)

theorem tower_stable (n : Nat) : (tower n).Stable := by
  induction n with
  | zero => exact .object (List.forall_mem_nil _)
  | succ n ih => exact .object (List.forall_mem_singleton.2 ih)

theorem tower_restored (schema : Schema) (n : Nat) :
    (Value.ofJson (tower n)).toJson schema = tower n := by
  induction n with
  | zero => rfl
  | succ n ih =>
    have object : (tower n).isNull = false := by cases n <;> rfl
    simp [tower, Value.ofJson, Value.mappingOfJson, Value.toJson, entriesToJson, object, ih]

def hashedFile (hashes : Json) : Json :=
  .object [("xsi:type", .string "FileObjectType"), ("hashes", hashes)]

def hashedLink (hashes : Json) : Json :=
  .object
    [("id", .string "object--00000000-0000-4000-8000-000000000009"),
      ("properties", hashedFile hashes)]

/-- An object with another related to it, whose file has some hashes. -/
def hashedDocument (hashes : Json) : Json :=
  .object
    [("id", .string "object--00000000-0000-4000-8000-000000000008"),
      ("related_objects", hashedLink hashes)]

def hashedObject (hashes : Value) : Entity where
  typeKey := objectKey
  values :=
    [("id", .string "object--00000000-0000-4000-8000-000000000008"),
      ("related_objects", .list [.related (.inline {
        typeKey := objectKey
        values :=
          [("id", .string "object--00000000-0000-4000-8000-000000000009"),
            ("properties", .entity ⟨fileKey, [("hashes", hashes)], []⟩)]
        extras := [] } none)])]
  extras := []

theorem hashedObject_toJson (hashes : Value) :
    (hashedObject hashes).toJson countingContext.schema = .object
      [("id", .string "object--00000000-0000-4000-8000-000000000008"),
        ("related_objects", .array [hashedLink (hashes.toJson countingContext.schema)])] := rfl

theorem hashedDocument_keysDistinct {hashes : Json} (distinct : hashes.KeysDistinct) :
    (hashedDocument hashes).KeysDistinct := by
  have file : (hashedFile hashes).KeysDistinct :=
    .object (by simp [Table.Distinct, Table.keys]) (by simp [Json.KeysDistinct.string, distinct])
  have link : (hashedLink hashes).KeysDistinct :=
    .object (by simp [Table.Distinct, Table.keys]) (by simp [Json.KeysDistinct.string, file])
  exact .object (by simp [Table.Distinct, Table.keys]) (by simp [Json.KeysDistinct.string, link])

theorem hashedLink_stable {hashes : Json} (stable : hashes.Stable) : (hashedLink hashes).Stable := by
  simp [hashedLink, hashedFile, stable]

theorem hashedLink_nesting (hashes : Json) : (hashedLink hashes).nesting = hashes.nesting + 2 := by
  simp [hashedLink, hashedFile, Json.nesting, Json.entriesNesting]

/-- The document nests as deep as the reader goes. -/
theorem tower_read :
    Json.parse? (hashedDocument (tower 123)).compact = some (hashedDocument (tower 123)) := by
  have distinct := hashedDocument_keysDistinct (tower_keysDistinct 123)
  have stable : (hashedDocument (tower 123)).Stable := by
    simp [hashedDocument, hashedLink_stable (tower_stable 123)]
  refine (Json.parse?_render Json.Layout.blanks_compact distinct stable).trans (if_pos ?_)
  simp [hashedDocument, Json.nesting, Json.entriesNesting, hashedLink_nesting, tower_nesting,
    Json.maxDepth]

set_option maxRecDepth 8000 in
theorem tower_parsed : ∃ after,
    ((Document.text (hashedDocument (tower 123)).compact).parseAs countingContext
      "Object").run.run {} = (.ok (hashedObject (Value.ofJson (tower 123))), after) := by
  rw [Document.parseAs, Document.toMapping_text rfl, tower_read]
  exact ⟨_, rfl⟩

/-- What the object is serialized to is refused, since the related object is written in a list. -/
theorem tower_refused {serialized : String}
    (done : countingContext.serialize (hashedObject (Value.ofJson (tower 123))) false =
      .ok serialized) (later : Store) :
    ((Document.text serialized).parseAs countingContext "Object").run.run later =
      (.error .malformedText, later) := by
  obtain ⟨after, run⟩ := tower_parsed
  have observed := countingContext_registered.setting.parseAs_observed rfl rfl _ _ _ _ run
  have clear := observed.mono fun _ => countingContext_registered.equipped.clear
  have json := hashedObject_toJson (Value.ofJson (tower 123))
  rw [tower_restored] at json
  have stable : ((hashedObject (Value.ofJson (tower 123))).toJson countingContext.schema).Stable := by
    simp [json, hashedLink_stable (tower_stable 123)]
  obtain ⟨-, written, same, parsed⟩ := Document.parseAs_output rfl run clear stable false
  obtain rfl := Except.ok.inj (done.symm.trans same)
  apply (parsed later).2
  simp [json, Json.nesting, Json.entriesNesting, Json.itemsNesting, hashedLink_nesting,
    tower_nesting, Json.maxDepth]

/-- Not all texts are read back. What the number of the file is written as is read as another, since
the reader divides a mantissa that has been rounded before. The document that nests as deep as the
reader goes is written as one that nests deeper. -/
theorem output_refused :
    (∃ e again after last,
      ((Document.text measuredFile).parseAs countingContext "Object").run.run {} = (.ok e, after) ∧
      countingContext.serialize e false = .ok rewrittenFile ∧
      ((Document.text rewrittenFile).parseAs countingContext "Object").run.run {} =
        (.ok again, last) ∧
      again.same countingContext.schema e = false) ∧
    ∃ e after serialized,
      ((Document.text (hashedDocument (tower 123)).compact).parseAs countingContext
        "Object").run.run {} = (.ok e, after) ∧
      countingContext.serialize e false = .ok serialized ∧
      ((Document.text serialized).parseAs countingContext "Object").run.run {} =
        (.error .malformedText, {}) := by
  obtain ⟨after, run⟩ := tower_parsed
  exact ⟨exists_of_altered rfl measuredFile_read,
    _, after, _, run, rfl, tower_refused rfl {}⟩

end Dossier.Catalog
