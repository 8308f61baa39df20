import Dossier.Proofs.CatalogTypes
import Dossier.Proofs.Lockstep
import Dossier.Proofs.Nulls

/-!
# The order of keys

Two documents are reordered if they differ at most in the order of keys, in objects that are built
as entities or related records (`Json.Reordered`). An entity comes of one just if it comes of the
other, and then the two are equal, the same was drawn and the same is cached; if neither keeps
custom properties, they are one and the same entity (`Entity.ofJson_reordered`).
-/

namespace Dossier

/-- The tables have the same keys, in whatever order each. What they give for the fields of a type
is related, and what they give under other keys is the same. -/
structure Table.Permuted {α : Type} (t : EntityType) (R : Field → α → α → Prop)
    (m other : Table α) : Prop where
  distinct : m.Distinct
  keys : m.keys.Perm other.keys
  declared : ∀ f ∈ t.fields, ∀ v w, m.get? f.name = some v → other.get? f.name = some w → R f v w
  undeclared : ∀ key, t.field? key = none → m.get? key = other.get? key

namespace Table.Permuted

variable {α : Type} {t : EntityType} {R : Field → α → α → Prop} {m other : Table α}

theorem distinct_other (h : Permuted t R m other) : other.Distinct := h.keys.nodup_iff.1 h.distinct

theorem get? (h : Permuted t R m other) {f : Field} (member : f ∈ t.fields) :
    Option.Rel (R f) (m.get? f.name) (other.get? f.name) := by
  have present : (m.get? f.name).isSome = (other.get? f.name).isSome := by
    rw [Bool.eq_iff_iff, isSome_get?_iff, isSome_get?_iff]
    exact h.keys.mem_iff
  have related := h.declared f member
  generalize m.get? f.name = v?, other.get? f.name = w? at present related
  cases v? <;> cases w?
  · exact .none
  · cases present
  · cases present
  · exact .some (related _ _ rfl rfl)

end Table.Permuted

/-- Permuted mappings correspond: the same properties are undeclared, in another order. -/
theorem Table.Permuted.corresponding {t : EntityType} {R : Field → Value → Value → Prop}
    {m other : Mapping} (h : Table.Permuted t R m other) : t.Corresponding R m other := by
  have distinct : ∀ {m : Mapping}, Table.Distinct m → Table.Distinct (t.undeclared m) :=
    fun distinct => distinct.sublist (List.filter_sublist.map _)
  have given : ∀ m : Mapping, ∀ key,
      Table.get? (t.undeclared m) key = if t.isCustom key then m.get? key else none :=
    fun m key => Table.get?_filter t.isCustom m key
  refine ⟨fun f member => h.get? member, fun tag separate => h.undeclared _
    (EntityType.field?_separateTag separate), .inr ⟨distinct h.distinct, ?_⟩⟩
  refine Table.perm_of_get? (distinct h.distinct) (distinct h.distinct_other) fun key => ?_
  rw [given, given]
  split
  · next custom => exact h.undeclared key (EntityType.isCustom_iff.1 custom).1
  · rfl

/-! ## Reordered documents -/

/-- The documents differ at most in the order of keys, in objects that are built for the field. -/
inductive Json.Reordered (ctx : Context) : Field → Json → Json → Prop where
  | same (f : Field) (json : Json) : Reordered ctx f json json
  | array {f : Field} {items others : List Json} (length : items.length = others.length)
    (each : ∀ {j k : Json}, (j, k) ∈ items.zip others → Reordered ctx f j k) :
    Reordered ctx f (.array items) (.array others)
  | object {f : Field} {type : TypeKey} {xs ys : List (String × Json)}
    (builds : f.builtType? ctx (.mapping (Mapping.ofJson xs)) = .ok (some type))
    (distinct : Table.Distinct xs) (keys : (Table.keys xs).Perm (Table.keys ys))
    (declared : ∀ g ∈ (ctx.typeOf type).fields, ∀ j k, Table.get? xs g.name = some j →
      Table.get? ys g.name = some k → Reordered ctx g j k)
    (undeclared : ∀ key, (ctx.typeOf type).field? key = none →
      Table.get? xs key = Table.get? ys key) :
    Reordered ctx f (.object xs) (.object ys)

namespace Json.Reordered

variable {ctx : Context} {f : Field} {j k : Json}

theorem isNull_eq (h : Reordered ctx f j k) : j.isNull = k.isNull := by
  cases h <;> rfl

end Json.Reordered

theorem Value.itemsOfJson_related {R : Value → Value → Prop} {items others : List Json}
    (each : List.Forall₂ (fun j k => j.isNull = k.isNull ∧ R (ofJson j) (ofJson k)) items others) :
    List.Forall₂ R (itemsOfJson items) (itemsOfJson others) := by
  induction each with
  | nil => exact .nil
  | cons head _ ih =>
    rw [itemsOfJson, itemsOfJson, head.1]
    split
    · exact ih
    · exact .cons head.2 ih

namespace Table.Permuted

variable {α : Type} {t : EntityType} {R : Field → α → α → Prop} {m other : Table α}

/-- Under any key both tables give something of a sort that related values are of. -/
theorem get?_any (h : Permuted t R m other) {S : α → α → Prop} (self : ∀ v, S v v)
    (weaker : ∀ f v w, R f v w → S v w) (key : String) :
    Option.Rel S (m.get? key) (other.get? key) := by
  cases found : t.field? key with
  | none =>
    rw [h.undeclared key found]
    exact related_self self _
  | some f =>
    obtain ⟨member, rfl⟩ := EntityType.mem_of_field? found
    have related := h.get? member
    generalize m.get? f.name = v?, other.get? f.name = w? at related ⊢
    cases related with
    | none => exact .none
    | some related => exact .some (weaker f _ _ related)

theorem mono {S : Field → α → α → Prop} (h : Permuted t R m other)
    (weaker : ∀ f ∈ t.fields, ∀ v w, R f v w → S f v w) : Permuted t S m other where
  distinct := h.distinct
  keys := h.keys
  declared f member v w left right := weaker f member v w (h.declared f member v w left right)
  undeclared := h.undeclared

theorem erase (h : Permuted t R m other) (key : String) :
    Permuted t R (m.erase key) (other.erase key) where
  distinct := h.distinct.sublist (List.filter_sublist.map _)
  keys := by
    have names : ∀ table : Table α, (table.erase key).keys = table.keys.filter (· ≠ key) := by
      intro table
      rw [Table.keys, Table.keys, Table.erase, List.filter_map]
      rfl
    rw [names, names]
    exact h.keys.filter _
  declared f member v w left right := by
    rw [Table.get?_erase] at left right
    split at left
    · cases left
    · next other => exact h.declared f member v w left (by rwa [if_neg other] at right)
  undeclared name absent := by
    rw [Table.get?_erase, Table.get?_erase, h.undeclared name absent]

/-- What permuted objects are read as is permuted, if nulls stand under the same keys. -/
theorem ofJson {R : Field → Json → Json → Prop} {S : Field → Value → Value → Prop}
    {xs ys : Table Json} (h : Permuted t R xs ys)
    (null : ∀ f j k, R f j k → j.isNull = k.isNull)
    (read : ∀ f ∈ t.fields, ∀ j k, R f j k → S f (Value.ofJson j) (Value.ofJson k)) :
    Permuted t S (Mapping.ofJson xs) (Mapping.ofJson ys) where
  distinct := Value.distinct_mappingOfJson h.distinct
  keys := by
    have read (entries : Table Json) (distinct : entries.Distinct) (key : String) :
        key ∈ Table.keys (Mapping.ofJson entries) ↔
          (((entries.get? key).filter (!·.isNull)).map Value.ofJson).isSome := by
      rw [← Table.isSome_get?_iff, Mapping.get?_ofJson distinct]
    refine (List.perm_ext_iff_of_nodup (Value.distinct_mappingOfJson h.distinct)
      (Value.distinct_mappingOfJson h.distinct_other)).2 fun key => ?_
    refine (read xs h.distinct key).trans (Iff.trans ?_ (read ys h.distinct_other key).symm)
    have related := h.get?_any (S := fun j k => j.isNull = k.isNull) (fun _ => rfl) null key
    generalize xs.get? key = j?, ys.get? key = k? at related ⊢
    cases related with
    | none => rfl
    | @some j k same => cases null : k.isNull <;> simp [same, null]
  declared f member v w left right := by
    rw [Mapping.get?_ofJson h.distinct] at left
    rw [Mapping.get?_ofJson h.distinct_other] at right
    obtain ⟨j, kept, rfl⟩ := Option.map_eq_some_iff.1 left
    obtain ⟨k, held, rfl⟩ := Option.map_eq_some_iff.1 right
    exact read f member j k (h.declared f member j k (Option.filter_eq_some_iff.1 kept).1
      (Option.filter_eq_some_iff.1 held).1)
  undeclared key absent := by
    rw [Mapping.get?_ofJson h.distinct,
      Mapping.get?_ofJson h.distinct_other, h.undeclared key absent]

end Table.Permuted

/-! ## Building reordered documents -/

/-- Values that are coerced in step for a field, as one value and as all that was supplied. Either
both are the same text or neither is a text. -/
structure Field.CoercedInStep (ctx : Context) (f : Field) (v w : Value) : Prop where
  text : v.string? = w.string?
  single (owner : EntityType) (segment : String) :
    Build.AlikeFrom ctx True v (f.coerceSingle ctx ctx.build owner segment v)
      (f.coerceSingle ctx ctx.build owner segment w)
  whole (owner : EntityType) :
    Build.AlikeFrom ctx True v (f.coerce ctx ctx.build owner v) (f.coerce ctx ctx.build owner w)

section Building

variable {ctx : Context} {t : EntityType} {m other : Mapping} {store left : Store}

/-- Under any key both mappings give the same text, or neither gives a text. -/
theorem Table.Permuted.text (h : Table.Permuted t (Field.CoercedInStep ctx) m other)
    (key : String) : Option.Rel (fun v w : Value => v.string? = w.string?) (m.get? key)
      (other.get? key) :=
  h.get?_any (S := fun v w : Value => v.string? = w.string?) (fun _ => rfl)
    (fun _ _ _ coerced => coerced.text) key

theorem Registry.pick_permuted (registry : Registry)
    (h : Table.Permuted t (Field.CoercedInStep ctx) m other) :
    registry.pick m = registry.pick other := by
  have given := h.text registry.key
  unfold pick
  generalize m.get? registry.key = v?, other.get? registry.key = w? at given
  cases given with
  | none => rfl
  | some same => rw [Option.bind_some, Option.bind_some, same]

theorem Context.build_inStep (blind : ctx.OrderBlind) {type : TypeKey}
    (h : Table.Permuted (ctx.typeOf type) (Field.CoercedInStep ctx) m other)
    (stores : store.Alike ctx left) :
    (ctx.build type m).InStep ctx store left
      (fun d e => Value.Matching ctx True (.mapping m) store left (.entity d) (.entity e))
      (ctx.build type other) := by
  have coerced := h.mono (S := fun f v w => Build.AlikeFrom ctx True v
    (f.coerce ctx ctx.builders.supplied (ctx.typeOf type) v)
    (f.coerce ctx ctx.builders.supplied (ctx.typeOf type) w)) fun g _ v w coerced => by
      rw [ctx.builders_supplied]
      exact coerced.whole _
  have supplied : ctx.builders.supplied.Accountable ctx := by
    rw [ctx.builders_supplied]
    exact ctx.build_accounts
  rw [ctx.build_eq, ctx.build_eq]
  exact EntityType.construct_inStep blind supplied (Context.defaulted_reliable blind)
    coerced.corresponding stores

namespace RelatedObject

/-- All that counts of a relationship is whether it is a text. -/
theorem relationshipOf_eq (record : Mapping) : relationshipOf record =
    match record.get? relationshipKey with
    | none => .ok none
    | some raw => match raw.string? with
      | some s => .ok (some s)
      | none => .error (.invalidProperty "RelatedObject" relationshipKey .notAString) := by
  unfold relationshipOf
  cases record.get? relationshipKey with
  | none => rfl
  | some raw => cases raw <;> rfl

theorem relationshipOf_permuted (h : Table.Permuted t (Field.CoercedInStep ctx) m other) :
    relationshipOf m = relationshipOf other := by
  have given := h.text relationshipKey
  rw [relationshipOf_eq, relationshipOf_eq]
  generalize m.get? relationshipKey = v?, other.get? relationshipKey = w? at given
  cases given with
  | none => rfl
  | some same =>
    dsimp only
    rw [same]

theorem idrefOf_permuted (h : Table.Permuted t (Field.CoercedInStep ctx) m other) :
    idrefOf m = idrefOf other := by
  have given := h.text idrefKey
  unfold idrefOf
  generalize m.get? idrefKey = v?, other.get? idrefKey = w? at given
  cases given with
  | none => rfl
  | some same =>
    dsimp only
    rw [same]

theorem presentationOf_permuted (h : Table.Permuted t (Field.CoercedInStep ctx) m other) :
    presentationOf m = presentationOf other := by
  have given := h.text idrefKey
  unfold presentationOf Table.contains
  generalize m.get? idrefKey = v?, other.get? idrefKey = w? at given
  cases given <;> rfl

/-- Permuted records are read in step, since their payloads are permuted as well. -/
theorem ofRecord_inStep (blind : ctx.OrderBlind) {type : TypeKey}
    (h : Table.Permuted (ctx.typeOf type) (Field.CoercedInStep ctx) m other)
    (shown : Presentation) (stores : store.Alike ctx left) :
    (ofRecord ctx.build type m shown).InStep ctx store left
      (fun r s => Value.Matching ctx True (.mapping m) store left (.related r) (.related s))
      (ofRecord ctx.build type other shown) := by
  have payload := (h.erase relationshipKey).erase idrefKey
  -- both records have something to embed, or neither
  have empty : payloadOf m = [] ↔ payloadOf other = [] := by
    have length := payload.keys.length_eq
    simp only [Table.keys, List.length_map] at length
    rw [← List.length_eq_zero_iff, ← List.length_eq_zero_iff]
    exact length ▸ Iff.rfl
  have embedded : ∀ relationship : Option String,
      (do return inline (← ctx.build type (payloadOf m)) relationship :
        Build RelatedObject).InStep ctx store left
          (fun r s => Value.Matching ctx True (.mapping m) store left (.related r) (.related s))
          (do return inline (← ctx.build type (payloadOf other)) relationship) := by
    intro relationship
    refine (Context.build_inStep blind payload stores).bind fun d e after later matching stores => ?_
    refine .pure stores ⟨.related matching.alike, fun holds start closed => ?_⟩
    obtain ⟨same, last⟩ := matching.eq_of_closed holds start closed
    cases same
    exact ⟨rfl, last⟩
  unfold ofRecord
  rw [relationshipOf_permuted h, idrefOf_permuted h]
  refine .ofExcept_bind stores fun relationship => .ofExcept_bind stores fun idref? => ?_
  simp only [empty]
  cases idref? with
  | none =>
    dsimp only
    split
    · exact .fail stores (.refl _)
    · exact embedded relationship
  | some idref =>
    dsimp only
    split
    · exact .pure stores ⟨.refl _, fun _ start _ => ⟨rfl, start⟩⟩
    · exact embedded relationship

end RelatedObject

/-- Permuted mappings are built in step for a field. -/
theorem Field.coerceKind_permuted (blind : ctx.OrderBlind) {f : Field} {type : TypeKey}
    (builds : f.builtType? ctx (.mapping m) = .ok (some type))
    (h : Table.Permuted (ctx.typeOf type) (Field.CoercedInStep ctx) m other) (owner : EntityType)
    (segment : String) :
    Build.AlikeFrom ctx True (.mapping m) (f.coerceKind ctx ctx.build owner segment (.mapping m))
      (f.coerceKind ctx ctx.build owner segment (.mapping other)) := by
  intro store left stores
  cases kind : f.kind with
  | related named =>
    rw [builtType?, kind] at builds
    cases builds
    rw [coerceKind_record kind, coerceKind_record kind, RelatedObject.presentationOf_permuted h]
    have read := RelatedObject.ofRecord_inStep blind h (RelatedObject.presentationOf other) stores
    exact (read.within segment).map fun _ _ _ _ matching => matching
  | _ =>
    have unrelated : ∀ named, f.kind ≠ .related named := by simp [kind]
    -- the tag stands under the same key, so the same type is picked
    have same : f.builtType? ctx (.mapping other) = .ok (some type) := by
      rw [← builds]
      unfold builtType?
      simp only [Registry.pick_permuted _ h]
    have built := Context.build_inStep blind h stores
    rw [coerceKind_resolved unrelated builds, coerceKind_resolved unrelated same]
    exact (built.within segment).map fun _ _ _ _ matching => matching

/-- **What reordered documents are read as is coerced in step.** By induction on how they are
reordered. -/
theorem Json.Reordered.coercedInStep (blind : ctx.OrderBlind) {f : Field} {j k : Json}
    (h : Json.Reordered ctx f j k) {type : TypeKey} (declared : f ∈ (ctx.typeOf type).fields) :
    f.CoercedInStep ctx (Value.ofJson j) (Value.ofJson k) := by
  have regular := (Context.build_reliable blind).regular
  induction h generalizing type with
  | same f json =>
    exact ⟨rfl, fun owner segment => f.coerceSingle_self blind declared regular owner segment True _,
      fun owner => f.coerce_self blind declared (Context.build_reliable blind) owner True _⟩
  | @array f items others length each ih =>
    -- a list is refused as a single value, whatever its items are
    have single : ∀ owner segment, Build.AlikeFrom ctx True (Value.ofJson (.array items))
        (f.coerceSingle ctx ctx.build owner segment (Value.ofJson (.array items)))
        (f.coerceSingle ctx ctx.build owner segment (Value.ofJson (.array others))) := by
      intro owner segment
      have refused : f.coerceSingle ctx ctx.build owner segment (Value.ofJson (.array others)) =
          f.coerceSingle ctx ctx.build owner segment (Value.ofJson (.array items)) := by
        rw [Value.ofJson, Value.ofJson, Field.coerceSingle, Field.coerceSingle,
          Field.coerceKind_list _ _ _ _ _ (Value.itemsOfJson items)]
      rw [refused]
      exact f.coerceSingle_self blind declared regular owner segment True _
    refine ⟨rfl, single, fun owner => Field.coerce_inStep ctx.build_accounts (single owner) ?_⟩
    refine Value.itemsOfJson_related (R := fun v w => ∀ segment, _) (List.forall₂_iff_zip.2
      ⟨length, fun {j k} member => ⟨(each member).isNull_eq, ?_⟩⟩)
    exact (ih member declared).single owner
  | @object f built xs ys builds distinct keys fields undeclared ih =>
    have permuted : Table.Permuted (ctx.typeOf built) (Field.CoercedInStep ctx)
        (Mapping.ofJson xs) (Mapping.ofJson ys) := by
      refine Table.Permuted.ofJson (R := fun g j k => Json.Reordered ctx g j k ∧
        g.CoercedInStep ctx (Value.ofJson j) (Value.ofJson k))
        ⟨distinct, keys, fun g member j k left right => ?_, undeclared⟩
        (fun _ _ _ related => related.1.isNull_eq) fun _ _ _ _ related => related.2
      exact ⟨fields g member j k left right, ih g member j k left right member⟩
    have single : ∀ owner segment, Build.AlikeFrom ctx True (Value.ofJson (.object xs))
        (f.coerceSingle ctx ctx.build owner segment (Value.ofJson (.object xs)))
        (f.coerceSingle ctx ctx.build owner segment (Value.ofJson (.object ys))) :=
      fun owner segment => Field.coerceSingle_inStep blind declared <|
        Field.coerceKind_permuted blind builds permuted owner segment
    exact ⟨rfl, single, fun owner => Field.coerce_inStep ctx.build_accounts (single owner)
      (.cons (single owner) .nil)⟩

end Building

/-! ## Keys that are written once -/

/-- A document has distinct keys if all objects that occur in it have. -/
theorem Json.keysDistinct_of_occurs : ∀ json : Json,
    (∀ entries, (object entries).Occurs json → Table.Distinct entries) → json.KeysDistinct
  | .null, _ => .null
  | .bool b, _ => .bool b
  | .number n, _ => .number n
  | .string s, _ => .string s
  | .array _, h => .array fun item member => keysDistinct_of_occurs item fun entries occurs =>
    h entries (.part member occurs)
  | .object entries, h => .object (h entries .here) fun (_, value) member =>
    keysDistinct_of_occurs value fun inner occurs =>
      h inner (.part (List.mem_map_of_mem member) occurs)
termination_by json => sizeOf json
decreasing_by
  all_goals
    have smaller := List.sizeOf_lt_of_mem member
    simp only [Prod.mk.sizeOf_spec, Json.array.sizeOf_spec, Json.object.sizeOf_spec] at smaller ⊢
    omega

/-- No mapping in the value has a key twice. -/
def Value.Keyed (value : Value) : Prop :=
  ∀ m : Mapping, (Value.mapping m).Inside value → Table.Distinct m

namespace Value

theorem keyed_iff {v : Value} : v.Keyed ↔
    (∀ m, v = .mapping m → Table.Distinct m) ∧ ∀ part ∈ v.parts, part.Keyed := by
  constructor
  · intro h
    refine ⟨fun m same => h m (same ▸ .here), fun part member m inside => ?_⟩
    exact h m (.part member inside)
  · rintro ⟨own, parts⟩ m inside
    cases inside with
    | here => exact own m rfl
    | part member inside => exact parts _ member m inside

theorem carries_keyed : Value.Carries Keyed fun e => (Value.entity e).Keyed where
  bool b := keyed_iff.2 ⟨fun _ => nofun, List.forall_mem_nil _⟩
  integer i := keyed_iff.2 ⟨fun _ => nofun, List.forall_mem_nil _⟩
  number x := keyed_iff.2 ⟨fun _ => nofun, List.forall_mem_nil _⟩
  string s := keyed_iff.2 ⟨fun _ => nofun, List.forall_mem_nil _⟩
  timestamp t := keyed_iff.2 ⟨fun _ => nofun, List.forall_mem_nil _⟩
  list := keyed_iff.trans (by simp [parts])
  entry h entry member := (keyed_iff.1 h).2 _ (List.mem_map_of_mem member)
  entity := Iff.rfl
  related := keyed_iff.trans (by simp [parts])

theorem Plain.keyed {v : Value} (h : v.Plain) : v.Keyed := by
  induction h with
  | list _ ih => exact carries_keyed.list.2 ih
  | mapping distinct _ ih =>
    refine keyed_iff.2 ⟨fun m same => ?_, List.forall_mem_map.2 ih⟩
    cases same
    exact distinct
  | bool => exact carries_keyed.bool _
  | integer => exact carries_keyed.integer _
  | number => exact carries_keyed.number _
  | string => exact carries_keyed.string _

/-- What has no key twice is written so: what entities and related objects are written as was put
into tables. -/
theorem Keyed.keysDistinct (schema : Schema) {v : Value} (h : v.Keyed) :
    (v.toJson schema).KeysDistinct := by
  refine Json.keysDistinct_of_occurs _ fun entries occurs => ?_
  rcases occurs_toJson occurs with ⟨s, text⟩ | ⟨u, inside, written⟩
  · cases text
  · cases u with
    | mapping m =>
      rw [toJson, entriesToJson_eq] at written
      cases written
      rw [Table.Distinct, Table.keys_map]
      exact h m inside
    | entity e =>
      cases written
      exact e.distinct_canonical schema
    | related r =>
      cases written
      exact r.distinct_canonical schema
    | number x => cases x <;> cases written
    | _ => cases written

end Value

/-- No default of a field comes with a mapping that has a key twice. -/
def Context.Keyed (ctx : Context) : Prop :=
  ∀ key, ∀ f ∈ (ctx.typeOf key).fields, ∀ default, f.default? = some default →
    default.Offers ctx Value.Keyed

theorem Context.build_keyed {ctx : Context} (keyed : ctx.Keyed) :
    ctx.build.Makes (fun _ => True) Value.Keyed fun e => (Value.entity e).Keyed := by
  refine build_carries Value.carries_keyed.conveys (fun _ _ f _ => f.asks_any ctx)
    (fun type _ => keyed type) fun e _ _ values extras => ?_
  refine Value.keyed_iff.2 ⟨fun _ => nofun, ?_⟩
  rw [Value.parts, List.forall_mem_map]
  exact List.forall_mem_append.2 ⟨values, extras⟩

/-- What is read of a document with distinct keys is written with distinct keys. -/
theorem Entity.ofJson_keysDistinct {ctx : Context} (keyed : ctx.Keyed) (type : TypeKey)
    {xs : Table Json} (written : (Json.object xs).KeysDistinct) :
    (ofJson ctx type (.object xs)).Ensures fun e => (e.toJson ctx.schema).KeysDistinct := by
  have plain : Mapping.All Value.Keyed (Mapping.ofJson xs) := by
    cases Value.plain_ofJson written with
    | mapping _ each => exact fun entry member => (each entry member).keyed
  have built := Context.build_keyed keyed type trivial (Mapping.ofJson xs) plain
  exact .finish (built.mono fun e made => made.2.keysDistinct ctx.schema) ctx

/-- **The order of keys does not matter.** For two objects that differ at most in the order of keys,
at any depth, where entities and related records are built: from the same store an entity is made of
both or of neither. If not, the errors are alike. If so, the entities are alike, and equal: that asks
that no mapping be written with a key twice, which none is that was read of a document
(`Entity.ofJson_keysDistinct`). Either way the same was drawn, and alike entities are cached under the
same identifiers. Unless one of the entities built keeps custom properties, the two entities are one
and the same, and so are their texts.

Only where a type keeps custom properties, whose order is that of arrival, is anything asked of the
functions that come with the schema and the context. -/
theorem Entity.ofJson_reordered {ctx : Context}
    (blind : (∃ type, ctx.KeepsCustom type) → ctx.OrderBlind) {type : TypeKey} {xs ys : Table Json}
    (reordered : Table.Permuted (ctx.typeOf type) (Json.Reordered ctx) xs ys) (store : Store) :
    Action.SameEnd ctx (fun d e => d.Alike ctx e ∧
        ((d.toJson ctx.schema).KeysDistinct → d.same ctx.schema e = true) ∧
        (ctx.config.allowCustomProperties = false →
          (∀ built ∈ (d.builtFrom ctx (Mapping.ofJson xs) store).1,
            (built.type ctx.schema).isOpen = false) →
          d = e ∧ ∀ pretty, ctx.serialize d pretty = ctx.serialize e pretty))
      ((ofJson ctx type (.object xs)).run.run store)
      ((ofJson ctx type (.object ys)).run.run store) := by
  have blind := Context.OrderBlind.of_kept blind
  have permuted : Table.Permuted (ctx.typeOf type) (Field.CoercedInStep ctx) (Mapping.ofJson xs)
      (Mapping.ofJson ys) :=
    reordered.ofJson (fun _ _ _ => Json.Reordered.isNull_eq)
      fun f declared _ _ related => related.coercedInStep blind declared
  have built := Context.build_inStep blind permuted (.refl store)
  refine built.finish blind fun d e after later matching => ?_
  refine ⟨matching.alike, Alike.same matching.alike, fun custom closed => ?_⟩
  have shut : ctx.Closed (d.builtFrom ctx (Mapping.ofJson xs) store).1 := by
    intro entity member
    rw [Context.keepsExtras, closed entity member, custom]
    rfl
  obtain ⟨same, -⟩ := matching.eq_of_closed trivial rfl shut
  cases same
  exact ⟨rfl, fun _ => rfl⟩

/-- The field has a test or a default of its own that is a function. -/
def Field.bringsFunction (f : Field) : Bool :=
  (match f.validator with
    | some (.custom _) => true
    | _ => false) ||
  match f.default? with
    | some (.computed _) => true
    | some (.deferred _) => true
    | _ => false

namespace Catalog

variable {extension : TypeKey → EntityType}

/-- The catalog brings no functions along, so a context for it is blind to order if its extension
brings none and its hooks do nothing. -/
theorem orderBlind {ctx : Context} (schema : ctx.schema = Catalog.schema extension)
    (plain : ∀ key, ∀ f ∈ (extension key).fields, f.bringsFunction = false)
    (idle : ∀ name e store, ctx.hooks name e store = store) : ctx.OrderBlind := by
  have catalog : ∀ t ∈ types.map (·.2), ∀ f ∈ t.fields, f.bringsFunction = false := by decide
  have none : ∀ {type} {f : Field}, f ∈ (ctx.typeOf type).fields → f.bringsFunction = false := by
    intro type f declared
    rw [Context.typeOf, schema] at declared
    rcases typeOf_schema extension type with known | extended
    · exact catalog _ known f declared
    · exact plain type f (extended ▸ declared)
  refine ⟨fun declared own => ?_, fun declared own => ?_, fun declared own => ?_, fun _ stores => ?_⟩
  · have without := none declared
    simp [Field.bringsFunction, own] at without
  · have without := none declared
    simp [Field.bringsFunction, own] at without
  · have without := none declared
    simp [Field.bringsFunction, own] at without
  · rw [idle, idle]
    exact stores

theorem keyed {ctx : Context} (schema : ctx.schema = Catalog.schema extension)
    (sure : ∀ key, EntityType.sureDefaults [] (extension key).fields = true) : ctx.Keyed := by
  intro key f declared default given
  have catalog : ∀ t ∈ types.map (·.2), EntityType.sureDefaults [] t.fields = true := by decide
  have all : EntityType.sureDefaults [] (ctx.typeOf key).fields = true := by
    rw [Context.typeOf, schema]
    rcases typeOf_schema extension key with known | extended
    · exact catalog _ known
    · exact extended ▸ sure key
  obtain ⟨known, sure⟩ := EntityType.isSure_of_mem all declared given
  exact Default.offers_of_isSure Value.carries_keyed sure

end Catalog

namespace KeyOrder

def inner : Table Json := [("state", .string "near"), ("has_changed", .bool true)]

/-- A document of an object with another inside. -/
def document : Table Json :=
  [("state", .string "seen"), ("related_objects", .array [.object inner])]

/-- The same with the keys of both objects the other way round. -/
def reversed : Table Json :=
  [("related_objects", .array [.object inner.reverse]), ("state", .string "seen")]

theorem get?_reversed {key : String} (other : "related_objects" ≠ key) :
    Table.get? document key = Table.get? reversed key := by
  have skip : ∀ (value : Json) (rest : Table Json),
      Table.get? (("related_objects", value) :: rest) key = rest.get? key := fun _ _ => if_neg other
  rw [reversed, skip, document, Table.get?, skip]
  rfl

theorem reordered : Table.Permuted Catalog.objectType (Json.Reordered Request.bareContext)
    document reversed where
  distinct := by decide
  keys := by decide
  declared := by
    intro f member j k left right
    by_cases related : "related_objects" = f.name
    · have listed : Reachable.relatedObjects ∈ Catalog.objectType.fields :=
        (@EntityType.mem_of_field? _ "related_objects" _ rfl).1
      obtain rfl : Reachable.relatedObjects = f := EntityType.eq_of_name_eq listed member related
      cases left
      cases right
      refine .array rfl fun {j k} inside => ?_
      obtain ⟨rfl, rfl⟩ := Prod.mk.inj (List.mem_singleton.1 inside)
      have once : Table.Distinct inner := by decide
      exact .object rfl once (inner.reverse_perm.symm.map _)
        (fun g _ j k left right => by
          rw [Table.get?_of_perm once inner.reverse_perm.symm, right] at left
          cases left
          exact .same g _)
        fun key _ => Table.get?_of_perm once inner.reverse_perm.symm key
    · rw [get?_reversed related, right] at left
      cases left
      exact .same f _
  undeclared key absent := by
    refine get?_reversed fun same => ?_
    subst same
    cases absent

theorem keysDistinct : (Json.object document).KeysDistinct := by
  refine .object (by decide) fun entry member => ?_
  rcases List.mem_cons.1 member with rfl | later
  · exact .string _
  · obtain rfl := List.mem_singleton.1 later
    refine .array fun item inside => ?_
    obtain rfl := List.mem_singleton.1 inside
    refine .object (by decide) fun entry member => ?_
    rcases List.mem_cons.1 member with rfl | later
    · exact .string _
    · obtain rfl := List.mem_singleton.1 later
      exact .bool _

/-- Both documents are read as an object, and it is the same object. -/
theorem reversed_same : ∃ d after later,
    (Entity.ofJson Request.bareContext Catalog.objectKey (.object document)).run.run {} =
      (.ok d, after) ∧
    (Entity.ofJson Request.bareContext Catalog.objectKey (.object reversed)).run.run {} =
      (.ok d, later) ∧
    after.Alike Request.bareContext later ∧ d.same Request.bareContext.schema d = true := by
  have ends := @Entity.ofJson_reordered Request.bareContext
    (fun _ => Catalog.orderBlind rfl (fun _ => by decide) fun _ _ _ => rfl) Catalog.objectKey
    document reversed reordered {}
  have keyed : Request.bareContext.Keyed := Catalog.keyed rfl fun _ => by decide
  have once := Entity.ofJson_keysDistinct keyed Catalog.objectKey keysDistinct {}
  generalize first : (Entity.ofJson Request.bareContext Catalog.objectKey
    (.object document)).run.run {} = x at ends once ⊢
  generalize (Entity.ofJson Request.bareContext Catalog.objectKey
    (.object reversed)).run.run {} = y at ends ⊢
  cases ends with
  | refused alike => cases first
  | @given d e after later related stores =>
    obtain ⟨-, equal, same⟩ := related
    obtain ⟨rfl, -⟩ := same rfl fun built _ => by
      rcases Catalog.typeOf_schema (fun _ => Catalog.objectType) built.typeKey with known | extended
      · obtain ⟨entry, member, same⟩ := List.mem_map.1 known
        exact (congrArg (·.isOpen) same).symm.trans (Catalog.isOpen_of_mem entry member)
      · exact congrArg (·.isOpen) extended
    exact ⟨d, after, later, rfl, rfl, stores, equal (once d after rfl)⟩

/-! ## Functions that look at the order -/

def vaultKey : TypeKey := ⟨"Vault"⟩

/-- Vaults keep custom properties, and are cached. -/
def vaultType : EntityType where
  name := "Vault"
  typeName := "vault"
  idField := some "id"
  isOpen := true
  fields := [(Field.text "id").withHook .cacheEntity]

/-- Lets a vault pass if its code comes before its other custom properties. -/
def codeFirst : Value → Except String Unit
  | .entity ⟨_, _, ("code", _) :: _⟩ => .ok ()
  | _ => .error "must begin with its code"

def bankKey : TypeKey := ⟨"Bank"⟩

def bankType : EntityType where
  name := "Bank"
  typeName := "bank"
  fields := [(Field.entity "vault" vaultKey).withValidator (.custom codeFirst)]

def bankContext : Context where
  schema := { typeOf := fun key => if key = vaultKey then vaultType else bankType }
  ids := .sequential
  clock := .fixed .epoch

def vaultId : String := "vault--00000000-0000-4000-8000-000000000001"

def vault : Table Json :=
  [("id", .string vaultId), ("code", .string "c"), ("note", .string "n")]

/-- The same vault with its custom properties the other way round. -/
def turned : Table Json :=
  [("id", .string vaultId), ("note", .string "n"), ("code", .string "c")]

/-- What a vault is written as, by what is written behind its identifier. -/
def vaultText (custom : String) : String := "\x7b\"id\":\"" ++ vaultId ++ "\"," ++ custom ++ "\x7d"

/-- What the cache holds under the identifier of the vault that is read, written as a text. -/
def cachedText (xs : Table Json) : Option (Except EntityError String) :=
  (((Entity.ofJson bankContext vaultKey (.object xs)).run.run {}).2.cache.get? vaultId).map
    (bankContext.serialize · false)

theorem vault_reordered {t : EntityType} (same : t = vaultType) :
    Table.Permuted t (Json.Reordered bankContext) vault turned where
  distinct := by decide
  keys := by decide
  declared f member j k left right := by
    subst same
    obtain rfl := List.mem_singleton.1 member
    cases left
    cases right
    exact .same _ _
  undeclared key _ := Table.get?_of_perm (by decide) ((List.Perm.swap _ _ _).cons _) key

/-- Of two banks that differ in the order of keys in the vault, one passes and the other does not,
since its validator sees the order. And of the two vaults by themselves, the caches hold entities
that are written as different texts. -/
theorem turned_refused :
    Table.Permuted bankType (Json.Reordered bankContext) [("vault", .object vault)]
        [("vault", .object turned)] ∧
      (∃ e after,
        (Entity.ofJson bankContext bankKey (.object [("vault", .object vault)])).run.run {} =
          (.ok e, after)) ∧
      ((Entity.ofJson bankContext bankKey (.object [("vault", .object turned)])).run.run {}).1 =
        .error (.invalidProperty "Bank" "vault" (.custom "must begin with its code")) ∧
      Table.Permuted vaultType (Json.Reordered bankContext) vault turned ∧
      cachedText vault = some (.ok (vaultText "\"code\":\"c\",\"note\":\"n\"")) ∧
      cachedText turned = some (.ok (vaultText "\"note\":\"n\",\"code\":\"c\"")) := by
  refine ⟨?_, ⟨_, _, rfl⟩, rfl, vault_reordered rfl, rfl, rfl⟩
  refine ⟨by decide, by decide, fun f member j k left right => ?_, fun key absent => ?_⟩
  · obtain rfl := List.mem_singleton.1 member
    cases left
    cases right
    have inner := vault_reordered (t := bankContext.typeOf vaultKey) rfl
    exact .object rfl inner.distinct inner.keys inner.declared inner.undeclared
  · have other : "vault" ≠ key := EntityType.ne_of_undeclared absent (List.mem_singleton_self _)
    simp only [Table.get?, other, if_false]

end KeyOrder

end Dossier
