import Mathlib.Data.List.Forall2
import Mathlib.Data.List.Nodup
import Dossier.Proofs.Canonical

/-!
# Entities that are alike

The custom properties of an entity are in the order in which they came. Two values are alike
if they differ in nothing but that order, at any depth and in entities of types that keep custom
properties, so alike entities have the same declared properties in the same order. Their canonical
forms are the same document (`Entity.Alike.same`), and no property that is read off one of them by
its name tells them apart. Where no type keeps custom properties, alike values are the same
(`Value.Alike.eq_of_closed`).
-/

namespace Dossier

theorem related_self {α : Type} {R : α → α → Prop} (self : ∀ value, R value value) :
    ∀ value? : Option α, Option.Rel R value? value?
  | none => .none
  | some value => .some (self value)

namespace Table

variable {α β : Type} {R : α → α → Prop} {s t : Table α}

/-- The tables have the same keys in the same order, and related values under each. -/
def Rel (R : α → α → Prop) (s t : Table α) : Prop :=
  List.Forall₂ (fun a b => a.1 = b.1 ∧ R a.2 b.2) s t

theorem rel_iff : Rel R s t ↔ s.keys = t.keys ∧ List.Forall₂ R (s.map (·.2)) (t.map (·.2)) := by
  constructor
  · intro h
    induction h with
    | nil => exact ⟨rfl, .nil⟩
    | cons head _ ih => exact ⟨congrArg₂ List.cons head.1 ih.1, .cons head.2 ih.2⟩
  · rintro ⟨keys, values⟩
    induction s generalizing t with
    | nil =>
      cases t with
      | nil => exact .nil
      | cons entry t => cases values
    | cons entry s ih =>
      cases t with
      | nil => cases values
      | cons other t =>
        obtain ⟨key, keys⟩ := List.cons.inj keys
        cases values with
        | cons value values => exact .cons ⟨key, value⟩ (ih keys values)

theorem rel_iff_zip : Rel R s t ↔ s.keys = t.keys ∧
    ∀ {v w : α}, (v, w) ∈ (s.map (·.2)).zip (t.map (·.2)) → R v w := by
  rw [rel_iff, List.forall₂_iff_zip]
  refine and_congr_right fun keys => and_iff_right ?_
  simpa [Table.keys] using congrArg List.length keys

namespace Rel

theorem refl (each : ∀ value, R value value) (t : Table α) : Rel R t t :=
  List.forall₂_same.2 fun entry _ => ⟨rfl, each entry.2⟩

theorem mono {S : α → α → Prop} (h : Rel R s t) (weaker : ∀ v w, R v w → S v w) : Rel S s t :=
  h.imp fun _ _ related => ⟨related.1, weaker _ _ related.2⟩

theorem eq {s t : Table α} (h : Rel Eq s t) : s = t := by
  induction h with
  | nil => rfl
  | cons head _ ih => rw [Prod.ext head.1 head.2, ih]

theorem get? (h : Rel R s t) (key : String) : Option.Rel R (s.get? key) (t.get? key) := by
  induction h with
  | nil => exact .none
  | @cons a b s t head _ ih =>
    obtain ⟨k, v⟩ := a
    obtain ⟨l, w⟩ := b
    obtain ⟨rfl, value⟩ := head
    rw [Table.get?, Table.get?]
    split
    · exact .some value
    · exact ih

theorem insert (h : Rel R s t) (key : String) {v w : α} (new : R v w) :
    Rel R (s.insert key v) (t.insert key w) := by
  induction h with
  | nil => exact .cons ⟨rfl, new⟩ .nil
  | @cons a b s t head tail ih =>
    obtain ⟨k, v⟩ := a
    obtain ⟨l, w⟩ := b
    obtain ⟨rfl, value⟩ := head
    rw [Table.insert, Table.insert]
    split
    · exact .cons ⟨rfl, new⟩ tail
    · exact .cons ⟨rfl, value⟩ ih

theorem append (h : Rel R s t) {more others : Table α} (later : Rel R more others) :
    Rel R (s ++ more) (t ++ others) := List.rel_append h later

theorem ofEntries (h : Rel R s t) : Rel R (Table.ofEntries s) (Table.ofEntries t) := by
  suffices ∀ front other, Rel R front other → Rel R (front.insertAll s) (other.insertAll t) from
    this [] [] .nil
  induction h with
  | nil => exact fun _ _ front => front
  | @cons a b s t head _ ih =>
    intro front other rel
    obtain ⟨k, v⟩ := a
    obtain ⟨l, w⟩ := b
    obtain ⟨rfl, value⟩ := head
    exact ih _ _ (rel.insert k value)

end Rel

theorem Rel.map {S : β → β → Prop} (h : Rel R s t) (f : α → β)
    (each : ∀ v w, R v w → S (f v) (f w)) :
    Rel S (s.map fun entry => (entry.1, f entry.2)) (t.map fun entry => (entry.1, f entry.2)) := by
  induction h with
  | nil => exact .nil
  | cons head _ ih => exact .cons ⟨head.1, each _ _ head.2⟩ ih

/-- Entries of distinct keys hide what was there, and leave the rest. -/
theorem get?_insertAll {entries : Table α} (distinct : entries.Distinct) (t : Table α)
    (key : String) : (t.insertAll entries).get? key = (entries.get? key).or (t.get? key) := by
  induction entries generalizing t with
  | nil => rfl
  | cons entry entries ih =>
    obtain ⟨k, v⟩ := entry
    obtain ⟨apart, later⟩ := List.nodup_cons.1 distinct
    show (insertAll (t.insert k v) entries).get? key = _
    rw [ih later, get?_insert, Table.get?]
    split
    · next same =>
      subst same
      rw [get?_eq_none_iff.2 apart]
      rfl
    · rfl

/-- Tables with distinct keys that give the same under each key have the same entries. -/
theorem perm_of_get? (distinct : s.Distinct) (other : t.Distinct)
    (same : ∀ key, s.get? key = t.get? key) : s.Perm t := by
  rw [List.perm_ext_iff_of_nodup (List.Nodup.of_map _ distinct) (List.Nodup.of_map _ other)]
  rintro ⟨key, value⟩
  constructor
  · exact fun member => mem_of_get? ((same key).symm.trans (distinct.get?_of_mem member))
  · exact fun member => mem_of_get? ((same key).trans (other.get?_of_mem member))

theorem get?_of_perm (distinct : s.Distinct) (perm : s.Perm t) (key : String) :
    s.get? key = t.get? key := by
  have other : t.Distinct := (perm.map Prod.fst).nodup_iff.1 distinct
  cases found : t.get? key with
  | none =>
    rw [get?_eq_none_iff] at found ⊢
    exact fun member => found ((perm.map Prod.fst).mem_iff.1 member)
  | some value => exact distinct.get?_of_mem (perm.mem_iff.2 (mem_of_get? found))

end Table

/-! ## Documents that are the same -/

/-- The document is the same as another if it has distinct keys, without which it would not even be
the same as itself. -/
def Json.MatchedBy (x y : Json) : Prop := x.KeysDistinct → x.same y = true

theorem Json.MatchedBy.refl (x : Json) : x.MatchedBy x := fun written => written.same_self

/-- An object is the same as another if what they give under each key is. -/
theorem Json.same_object {xs ys : Table Json} (written : (object xs).KeysDistinct)
    (other : ys.Distinct) (each : ∀ key, Option.Rel MatchedBy (xs.get? key) (ys.get? key)) :
    (object xs).same (object ys) = true := by
  obtain ⟨distinct, inside⟩ : xs.Distinct ∧ ∀ entry ∈ xs, entry.2.KeysDistinct := by
    cases written with
    | object distinct inside => exact ⟨distinct, inside⟩
  -- each key is in both tables, and in neither twice
  have keys : xs.keys.Perm ys.keys := by
    rw [List.perm_ext_iff_of_nodup distinct other]
    intro key
    rw [← Table.isSome_get?_iff, ← Table.isSome_get?_iff]
    have found := each key
    generalize xs.get? key = x, ys.get? key = y at found ⊢
    cases found <;> rfl
  have length : xs.length = ys.length := by simpa [Table.keys] using keys.length_eq
  -- by induction on a part of the one table, since the other stays whole
  have entries : ∀ part : Table Json, (∀ entry ∈ part, entry ∈ xs) →
      sameEntries part ys = true := by
    intro part among
    induction part with
    | nil => rfl
    | cons entry part ih =>
      obtain ⟨key, x⟩ := entry
      have member := among _ List.mem_cons_self
      have found := each key
      rw [distinct.get?_of_mem member] at found
      rw [sameEntries, ih fun entry member => among entry (List.mem_cons_of_mem _ member),
        Bool.and_true]
      generalize ys.get? key = held at found
      cases found with
      | some same => exact same (inside _ member)
  rw [Json.same, length, entries xs fun _ => id, Bool.and_true]
  exact beq_self_eq_true _

/-! ## Values -/

/-- Entities of the type keep custom properties in the context. -/
def Context.KeepsCustom (ctx : Context) (type : TypeKey) : Prop :=
  ctx.keepsExtras (ctx.typeOf type) = true

/-- The values differ at most in the order of the custom properties of entities in them, of types
that keep such. -/
inductive Value.Alike (ctx : Context) : Value → Value → Prop where
  | refl (value : Value) : Alike ctx value value
  | list {items others : List Value} (length : items.length = others.length)
    (each : ∀ {v w : Value}, (v, w) ∈ items.zip others → Alike ctx v w) :
    Alike ctx (.list items) (.list others)
  | entity {typeKey : TypeKey} {values others extras more : List (String × Value)}
    (keys : Table.keys values = Table.keys others)
    (each : ∀ {v w : Value}, (v, w) ∈ (values.map (·.2)).zip (others.map (·.2)) → Alike ctx v w)
    (custom : extras = more ∨
      Table.Distinct extras ∧ extras.Perm more ∧ ctx.KeepsCustom typeKey) :
    Alike ctx (.entity ⟨typeKey, values, extras⟩) (.entity ⟨typeKey, others, more⟩)
  | related {d e : Entity} {relationship : Option String}
    (inline : Alike ctx (.entity d) (.entity e)) :
    Alike ctx (.related ⟨.inline d, relationship⟩) (.related ⟨.inline e, relationship⟩)

def Entity.Alike (ctx : Context) (d e : Entity) : Prop :=
  (Value.entity d).Alike ctx (.entity e)

/-- The mappings have the same keys in the same order, and alike values under each. -/
def Mapping.Alike (ctx : Context) (m other : Mapping) : Prop :=
  Table.Rel (Value.Alike ctx) m other

section Alike

variable {ctx : Context}

theorem Mapping.Alike.refl (m : Mapping) : m.Alike ctx m := Table.Rel.refl .refl m

namespace Entity.Alike

variable {d e : Entity}

theorem refl (e : Entity) : e.Alike ctx e := Value.Alike.refl _

theorem intro {typeKey : TypeKey} {values others extras more : Mapping}
    (alike : Mapping.Alike ctx values others) (custom : extras = more ∨
      Table.Distinct extras ∧ extras.Perm more ∧ ctx.KeepsCustom typeKey) :
    Alike ctx ⟨typeKey, values, extras⟩ ⟨typeKey, others, more⟩ := by
  obtain ⟨keys, each⟩ := Table.rel_iff_zip.1 alike
  exact Value.Alike.entity keys each custom

theorem typeKey_eq (h : d.Alike ctx e) : d.typeKey = e.typeKey := by
  cases h <;> rfl

theorem values (h : d.Alike ctx e) : Mapping.Alike ctx d.values e.values := by
  cases h with
  | refl => exact .refl _
  | entity keys each =>
    exact Table.rel_iff_zip.2 ⟨keys, each⟩

theorem get?_extras (h : d.Alike ctx e) (key : String) :
    Table.get? d.extras key = Table.get? e.extras key := by
  cases h with
  | refl => rfl
  | entity _ _ custom =>
    rcases custom with rfl | ⟨distinct, perm, -⟩
    · rfl
    · exact Table.get?_of_perm distinct perm key

/-- Properties are alike, declared or custom. -/
theorem get? (h : d.Alike ctx e) (name : String) :
    Option.Rel (Value.Alike ctx) (d.get? name) (e.get? name) := by
  unfold Entity.get?
  rw [h.get?_extras]
  have declared := h.values.get? name
  generalize Table.get? d.values name = v, Table.get? e.values name = w at declared ⊢
  cases declared with
  | some alike => exact .some alike
  | none => exact related_self .refl _

theorem isSet_eq (h : d.Alike ctx e) (name : String) : d.isSet name = e.isSet name := by
  have property := h.get? name
  unfold isSet
  generalize d.get? name = v, e.get? name = w at property ⊢
  cases property <;> rfl

theorem type_eq (h : d.Alike ctx e) (schema : Schema) : d.type schema = e.type schema :=
  congrArg schema.typeOf h.typeKey_eq

theorem isOf_eq (h : d.Alike ctx e) (schema : Schema) (t : EntityType) :
    d.isOf schema t = e.isOf schema t := congrArg (·.sameAs t) (h.type_eq schema)

end Entity.Alike

namespace Value.Alike

variable {v w : Value}

theorem string?_eq (h : v.Alike ctx w) : v.string? = w.string? := by
  cases h <;> rfl

theorem integer?_eq (h : v.Alike ctx w) : v.integer? = w.integer? := by
  cases h <;> rfl

/-- The items that alike values supply to a field of lists are alike. -/
theorem itemsOf (h : v.Alike ctx w) :
    List.Forall₂ (Alike ctx) (Field.itemsOf v) (Field.itemsOf w) := by
  cases h with
  | refl => exact List.forall₂_same.2 fun item _ => .refl item
  | list length each => exact List.forall₂_iff_zip.2 ⟨length, each⟩
  | entity keys each custom => exact .cons (.entity keys each custom) .nil
  | related inline => exact .cons (.related inline) .nil

/-- Where nothing keeps custom properties, alike values are the same. -/
theorem eq_of_closed (closed : ∀ type, ¬ctx.KeepsCustom type) (h : v.Alike ctx w) : v = w := by
  induction h with
  | refl => rfl
  | @list items others length _ ih =>
    have each : List.Forall₂ Eq items others := List.forall₂_iff_zip.2 ⟨length, ih⟩
    rw [List.forall₂_eq_eq_eq] at each
    rw [each]
  | @entity typeKey values others extras more keys _ custom ih =>
    have same : values = others := (Table.rel_iff_zip.2 ⟨keys, ih⟩).eq
    rw [same, custom.resolve_right fun kept => closed typeKey kept.2.2]
  | related _ ih =>
    cases ih
    rfl

end Value.Alike

theorem Entity.Alike.identifier?_eq {d e : Entity} (h : d.Alike ctx e) (schema : Schema) :
    d.identifier? schema = e.identifier? schema := by
  unfold Entity.identifier?
  rw [h.type_eq]
  congr 1
  funext name
  have property := h.get? name
  unfold Entity.string?
  generalize d.get? name = v, e.get? name = w at property ⊢
  cases property with
  | none => rfl
  | some alike => exact alike.string?_eq

end Alike

section Canonical

variable {schema : Schema} {ctx : Context}

/-- Fields are read off in the order of declaration. -/
theorem Entity.rel_fields {R : Value → Value → Prop} {d e : Entity} (type : d.typeKey = e.typeKey)
    (values : Table.Rel R d.values e.values) :
    Table.Rel R (d.fields schema) (e.fields schema) := by
  have same : d.type schema = e.type schema := congrArg schema.typeOf type
  unfold Entity.fields
  rw [same]
  refine List.rel_filterMap (R := Eq) ?_ (List.forall₂_eq_eq_eq ▸ rfl)
  rintro f _ rfl
  have value := values.get? f.name
  dsimp only
  generalize Table.get? d.values f.name = v, Table.get? e.values f.name = w at value ⊢
  cases value with
  | none => exact .none
  | some related => exact .some ⟨rfl, related⟩

/-- What an entity is written as under a key: a custom property or, failing that, the tag or a
field. -/
theorem Entity.get?_canonical {e : Entity} (distinct : Table.Distinct e.extras) (key : String) :
    Table.get? (e.canonical schema) key =
      ((Table.get? e.extras key).map (·.toJson schema)).or (Table.get? (Table.ofEntries
        ((e.type schema).tagEntry .string ++
          (e.fields schema).map fun entry => (entry.1, entry.2.toJson schema))) key) := by
  have written : Table.Distinct (e.extras.map fun entry => (entry.1, entry.2.toJson schema)) := by
    rw [Table.Distinct, Table.keys_map]
    exact distinct
  rw [canonical_eq_ofEntries, List.map_append, ← List.append_assoc, Table.ofEntries,
    Table.insertAll, List.foldl_append]
  refine (Table.get?_insertAll written _ key).trans ?_
  rw [Table.get?_map]
  rfl

theorem Entity.distinct_canonical (schema : Schema) (e : Entity) :
    Table.Distinct (e.canonical schema) := by
  rw [canonical_eq_ofEntries]
  exact Table.distinct_ofEntries _

/-- The canonical form has no key twice, since it was put into a table. -/
theorem RelatedObject.distinct_canonical (schema : Schema) (r : RelatedObject) :
    Table.Distinct (r.canonical schema) := by
  have held : ∀ holding : Holding, Table.Distinct (holding.canonical schema) := by
    intro holding
    cases holding with
    | inline e => exact e.distinct_canonical schema
    | byReference idref => exact List.nodup_singleton _
  obtain ⟨holding, relationship⟩ := r
  cases relationship with
  | none => exact held holding
  | some relationship => exact (held holding).insert _ _

theorem Value.sameItems_toJson {items others : List Value}
    (each : List.Forall₂ (fun v w => (v.toJson schema).MatchedBy (w.toJson schema)) items others)
    (written : ∀ item ∈ items, (item.toJson schema).KeysDistinct) :
    Json.sameItems (itemsToJson schema items) (itemsToJson schema others) = true := by
  induction each with
  | nil => rfl
  | cons head _ ih =>
    rw [itemsToJson, itemsToJson, Json.sameItems, head (written _ List.mem_cons_self),
      ih fun item member => written item (List.mem_cons_of_mem _ member)]
    rfl

/-- What an entity is written as is matched key by key. -/
theorem Entity.canonical_matched {d e : Entity} (type : d.typeKey = e.typeKey)
    (values : Table.Rel (fun v w => (v.toJson schema).MatchedBy (w.toJson schema)) d.values
      e.values)
    (custom : d.extras = e.extras ∨ Table.Distinct d.extras ∧ d.extras.Perm e.extras)
    (key : String) :
    Option.Rel Json.MatchedBy (Table.get? (d.canonical schema) key)
      (Table.get? (e.canonical schema) key) := by
  have same : d.type schema = e.type schema := congrArg schema.typeOf type
  have tagged : Table.Rel Json.MatchedBy
      (Table.ofEntries ((d.type schema).tagEntry .string ++
        (d.fields schema).map fun entry => (entry.1, entry.2.toJson schema)))
      (Table.ofEntries ((e.type schema).tagEntry .string ++
        (e.fields schema).map fun entry => (entry.1, entry.2.toJson schema))) := by
    rw [same]
    refine .ofEntries (.append (.refl .refl _) ?_)
    exact (rel_fields type values).map _ fun _ _ matched => matched
  rcases custom with equal | ⟨distinct, perm⟩
  · -- keys may come twice here, but then they do so on both sides
    refine Table.Rel.get? ?_ key
    rw [canonical_eq_ofEntries, canonical_eq_ofEntries, same, equal]
    refine .ofEntries (.append (.refl .refl _) ?_)
    rw [List.map_append, List.map_append]
    refine .append ?_ (.refl .refl _)
    exact (rel_fields type values).map _ fun _ _ matched => matched
  · have other : Table.Distinct e.extras := (perm.map Prod.fst).nodup_iff.1 distinct
    rw [get?_canonical distinct, get?_canonical other, Table.get?_of_perm distinct perm]
    cases Table.get? e.extras key with
    | some value => exact .some (.refl _)
    | none => exact tagged.get? key

/-- What alike values are written as is matched, and so is what is under a key of it. -/
theorem Value.Alike.matched {v w : Value} (h : v.Alike ctx w) :
    (v.toJson schema).MatchedBy (w.toJson schema) ∧
    ∀ key, Option.Rel Json.MatchedBy ((v.toJson schema).field? key)
      ((w.toJson schema).field? key) := by
  induction h with
  | refl value => exact ⟨.refl _, fun _ => related_self .refl _⟩
  | @list items others length each ih =>
    refine ⟨fun written => ?_, fun _ => .none⟩
    rw [toJson, itemsToJson_eq] at written
    cases written with
    | array written =>
      exact sameItems_toJson (List.forall₂_iff_zip.2 ⟨length, fun member => (ih member).1⟩)
        fun item member => written _ (List.mem_map_of_mem member)
  | @entity typeKey values others extras more keys each custom ih =>
    have rel : Table.Rel (fun v w => (v.toJson schema).MatchedBy (w.toJson schema)) values others :=
      Table.rel_iff_zip.2 ⟨keys, fun member => (ih member).1⟩
    -- the relationship is written over whatever the entity has under its key
    have matched : ∀ key, Option.Rel Json.MatchedBy
        (Table.get? (Entity.canonical schema ⟨typeKey, values, extras⟩) key)
        (Table.get? (Entity.canonical schema ⟨typeKey, others, more⟩) key) :=
      Entity.canonical_matched rfl rel (custom.imp_right fun kept => ⟨kept.1, kept.2.1⟩)
    exact ⟨fun written => Json.same_object written (Entity.distinct_canonical schema _) matched,
      matched⟩
  | @related d e relationship inline ih =>
    have matched : ∀ key, Option.Rel Json.MatchedBy
        (Table.get? (RelatedObject.canonical schema ⟨.inline d, relationship⟩) key)
        (Table.get? (RelatedObject.canonical schema ⟨.inline e, relationship⟩) key) := by
      intro key
      cases relationship with
      | none => exact ih.2 key
      | some relationship =>
        rw [RelatedObject.canonical, RelatedObject.canonical, Table.get?_insert, Table.get?_insert]
        split
        · exact .some (.refl _)
        · exact ih.2 key
    exact ⟨fun written => Json.same_object written (RelatedObject.distinct_canonical schema _)
      matched, matched⟩

/-- **Alike entities are equal**, if no key is written twice. -/
theorem Entity.Alike.same {d e : Entity} (h : d.Alike ctx e)
    (written : (d.toJson schema).KeysDistinct) : d.same schema e = true :=
  (Value.Alike.matched h).1 written

end Canonical

end Dossier
