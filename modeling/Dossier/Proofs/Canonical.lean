import Mathlib.Data.List.Basic
import Dossier.Proofs.Fitting
import Dossier.Proofs.Plain

/-!
# Canonical forms

An entity that is laid out is written as its tag, if that is no declared field, then
its values as they stand, and then its custom properties (`Entity.Laid.canonical_eq`).
`Entity.reading` is what that is read as; under each key of it is the tag, or what a
field or a custom property is written as.
-/

namespace Dossier

namespace Table

variable {α β : Type}

theorem get?_map (t : Table α) (f : α → β) (key : String) :
    get? (t.map fun entry => (entry.1, f entry.2)) key = (t.get? key).map f := by
  induction t with
  | nil => rfl
  | cons entry t ih =>
    obtain ⟨k, v⟩ := entry
    rw [List.map_cons, get?, get?]
    split
    · rfl
    · exact ih

theorem keys_map (t : Table α) (f : α → β) :
    keys (t.map fun entry => (entry.1, f entry.2)) = t.keys := by
  rw [keys, keys, List.map_map]
  rfl

/-- Choosing entries of distinct keys chooses what is found. -/
theorem Distinct.get?_filter {t : Table α} (distinct : t.Distinct) (keep : α → Bool)
    (key : String) :
    get? (t.filter fun entry => keep entry.2) key = (t.get? key).filter keep := by
  induction t with
  | nil => rfl
  | cons entry t ih =>
    obtain ⟨other, value⟩ := entry
    obtain ⟨apart, later⟩ := List.nodup_cons.1 distinct
    by_cases same : other = key
    · subst same
      have rest : get? t other = none := Table.get?_eq_none_iff.2 apart
      by_cases kept : keep value = true
      · simp [get?, kept, Option.filter]
      · simp [get?, kept, ih later, rest, Option.filter]
    · by_cases kept : keep value = true
      · simp [get?, kept, same, ih later]
      · simp [get?, kept, same, ih later]

theorem keys_append (s t : Table α) : keys (s ++ t) = s.keys ++ t.keys := List.map_append

theorem erase_of_absent {t : Table α} {key : String} (absent : key ∉ t.keys) : t.erase key = t :=
  List.filter_eq_self.2 fun entry member => by
    have other : entry.1 ≠ key := fun same => absent (same ▸ List.mem_map_of_mem member)
    simpa using other

end Table

/-- What is read under a key of an object, unless it is null. -/
theorem Mapping.get?_ofJson {entries : Table Json} (distinct : entries.Distinct) (key : String) :
    Table.get? (Mapping.ofJson entries) key =
      ((entries.get? key).filter (!·.isNull)).map Value.ofJson := by
  rw [Mapping.ofJson, Value.mappingOfJson_eq, Table.get?_map,
    distinct.get?_filter fun json => !json.isNull]

namespace EntityType

variable {α β : Type} {t : EntityType}

/-- The entry of the tag, if it is no declared field. -/
def tagEntry (t : EntityType) (ofTag : String → α) : Table α :=
  (t.separateTag?.map fun tag => (tag.key, ofTag tag.value)).toList

theorem tagEntry_map (ofTag : String → α) (f : α → β) :
    (t.tagEntry ofTag).map (fun entry => (entry.1, f entry.2)) =
      t.tagEntry fun value => f (ofTag value) := by
  unfold tagEntry
  cases t.separateTag? <;> rfl

theorem mem_tagEntry {ofTag : String → α} {entry : String × α} (h : entry ∈ t.tagEntry ofTag) :
    ∃ tag, t.separateTag? = some tag ∧ entry = (tag.key, ofTag tag.value) := by
  unfold tagEntry at h
  obtain ⟨tag, found, same⟩ := Option.map_eq_some_iff.1 (Option.mem_toList.1 h)
  exact ⟨tag, found, same.symm⟩

theorem get?_tagEntry (ofTag : String → α) {key : String}
    (other : ∀ tag, t.separateTag? = some tag → tag.key ≠ key) :
    Table.get? (t.tagEntry ofTag) key = none := by
  unfold tagEntry
  cases found : t.separateTag? with
  | none => rfl
  | some tag => exact if_neg (other tag found)

theorem arrange_eq (t : EntityType) (ofTag : String → α) (values extras : Table α) :
    t.arrange ofTag values extras = Table.ofEntries (t.tagEntry ofTag ++
      t.fields.filterMap (fun f => (values.get? f.name).map (f.name, ·)) ++ extras) := by
  unfold arrange tagEntry
  cases t.separateTag? <;> rfl

end EntityType

/-! ## Entities -/

namespace Entity

variable {ctx : Context} {e : Entity}

/-- Fields are read off under distinct names, since they are declared so. -/
theorem distinct_fields (schema : Schema) (e : Entity) : Table.Distinct (e.fields schema) := by
  have names := (e.type schema).distinct
  unfold Table.Distinct Table.keys fields
  generalize (e.type schema).fields = fields at names
  rw [List.map_filterMap]
  induction fields with
  | nil => exact List.nodup_nil
  | cons f fields ih =>
    obtain ⟨apart, later⟩ := List.nodup_cons.1 names
    rw [List.filterMap_cons]
    split
    · exact ih later
    · -- a field that is set adds its name, which no later one has
      next name same =>
      obtain ⟨_, found, rfl⟩ := Option.map_eq_some_iff.1 same
      obtain ⟨value, _, rfl⟩ := Option.map_eq_some_iff.1 found
      refine List.nodup_cons.2 ⟨fun member => ?_, ih later⟩
      obtain ⟨g, declared, gave⟩ := List.mem_filterMap.1 member
      obtain ⟨_, held, same⟩ := Option.map_eq_some_iff.1 gave
      obtain ⟨other, _, rfl⟩ := Option.map_eq_some_iff.1 held
      exact apart (List.mem_map.2 ⟨g, declared, same⟩)

/-- The canonical form of any entity: its tag, its fields and its custom properties put into one
table. -/
theorem canonical_eq_ofEntries (schema : Schema) (e : Entity) :
    e.canonical schema = Table.ofEntries ((e.type schema).tagEntry .string ++
      (e.fields schema ++ e.extras).map fun entry => (entry.1, entry.2.toJson schema)) := by
  have declared : (e.type schema).fields.filterMap (fun f =>
      (Table.get? (e.values.map fun entry => (entry.1, entry.2.toJson schema)) f.name).map
        (f.name, ·)) = (e.fields schema).map fun entry => (entry.1, entry.2.toJson schema) := by
    rw [fields, List.map_filterMap]
    apply List.filterMap_congr
    intro f _
    rw [Table.get?_map, Option.map_map, Option.map_map]
    rfl
  have canonical : e.canonical schema = (e.type schema).arrange .string
      (entriesToJson schema e.values) (entriesToJson schema e.extras) := by
    obtain ⟨typeKey, values, extras⟩ := e
    rw [Entity.canonical]
    rfl
  rw [canonical, EntityType.arrange_eq, Value.entriesToJson_eq, Value.entriesToJson_eq, declared,
    List.append_assoc, ← List.map_append]

/-- An entity whose properties are in the order in which they are written: the declared ones in the
order of their declaration, and the custom ones under names of their own. -/
structure Laid (ctx : Context) (e : Entity) : Prop where
  fits : e.Fits ctx
  ordered : e.fields ctx.schema = e.values
  distinct : Table.Distinct e.extras
  untagged : ∀ tag, (e.type ctx.schema).separateTag? = some tag → tag.key ∉ Table.keys e.extras

/-- What the canonical form of an entity is read as. -/
def reading (ctx : Context) (e : Entity) : Mapping :=
  (e.type ctx.schema).tagEntry .string ++
    (e.values ++ e.extras).map fun entry => (entry.1, Value.ofJson (entry.2.toJson ctx.schema))

/-- What is read is the tag, declared or custom. -/
theorem keys_reading (ctx : Context) (e : Entity) :
    Table.keys (e.reading ctx) =
      Table.keys ((e.type ctx.schema).tagEntry Value.string) ++
        (Table.keys e.values ++ Table.keys e.extras) := by
  rw [reading, Table.keys_append,
    Table.keys_map _ fun value : Value => Value.ofJson (value.toJson ctx.schema), Table.keys_append]

namespace Laid

/-- What is stored has the name of a declared field. -/
theorem declared (h : e.Laid ctx) {name : String} (member : name ∈ Table.keys e.values) :
    ∃ f ∈ (e.type ctx.schema).fields, f.name = name := by
  obtain ⟨⟨_, value⟩, there, rfl⟩ := List.mem_map.1 member
  obtain ⟨f, declared, same, -⟩ := h.fits.stored _ value there
  exact ⟨f, declared, same⟩

/-- A custom property has the name of no field. -/
theorem undeclared (h : e.Laid ctx) {f : Field} (declared : f ∈ (e.type ctx.schema).fields) :
    f.name ∉ Table.keys e.extras := by
  intro member
  obtain ⟨⟨name, value⟩, there, same⟩ := List.mem_map.1 member
  have found : (e.type ctx.schema).field? name = some f :=
    (show name = f.name from same) ▸ EntityType.field?_of_mem declared
  rw [h.fits.apart name value there] at found
  cases found

theorem distinct_values (h : e.Laid ctx) : Table.Distinct e.values :=
  h.ordered ▸ distinct_fields ctx.schema e

/-- The properties that an entity holds have distinct names. -/
theorem distinct_append (h : e.Laid ctx) : Table.Distinct (e.values ++ e.extras) := by
  rw [Table.Distinct, Table.keys, List.map_append, List.nodup_append]
  refine ⟨h.distinct_values, h.distinct, ?_⟩
  rintro name stored other custom rfl
  obtain ⟨f, declared, rfl⟩ := h.declared stored
  exact h.undeclared declared custom

theorem distinct_written (h : e.Laid ctx) {α : Type} (ofTag : String → α) (f : Value → α) :
    Table.Distinct ((e.type ctx.schema).tagEntry ofTag ++
      (e.values ++ e.extras).map fun entry => (entry.1, f entry.2)) := by
  rw [Table.Distinct, Table.keys, List.map_append, List.nodup_append]
  refine ⟨?_, ?_, ?_⟩
  · unfold EntityType.tagEntry
    cases (e.type ctx.schema).separateTag? <;> simp
  · show (Table.keys _).Nodup
    rw [Table.keys_map]
    exact h.distinct_append
  · -- the tag is no field, and no custom property either
    rintro _ tagged key held rfl
    change _ ∈ Table.keys _ at held
    obtain ⟨entry, there, rfl⟩ := List.mem_map.1 tagged
    obtain ⟨tag, found, rfl⟩ := EntityType.mem_tagEntry there
    rw [Table.keys_map, Table.keys, List.map_append, List.mem_append] at held
    rcases held with stored | custom
    · obtain ⟨field, declared, same⟩ := h.declared stored
      exact EntityType.ne_separateTag found declared same
    · exact h.untagged tag found custom

/-- The canonical form of an entity that is laid out. -/
theorem canonical_eq (h : e.Laid ctx) :
    e.canonical ctx.schema = (e.type ctx.schema).tagEntry .string ++
      (e.values ++ e.extras).map fun entry => (entry.1, entry.2.toJson ctx.schema) := by
  rw [canonical_eq_ofEntries, h.ordered]
  exact (h.distinct_written Json.string (·.toJson ctx.schema)).ofEntries_eq

theorem keys_canonical (h : e.Laid ctx) :
    Table.keys (e.canonical ctx.schema) = Table.keys (e.reading ctx) := by
  have tag : Table.keys ((e.type ctx.schema).tagEntry Json.string) =
      Table.keys ((e.type ctx.schema).tagEntry Value.string) := by
    unfold EntityType.tagEntry
    cases (e.type ctx.schema).separateTag? <;> rfl
  rw [h.canonical_eq, keys_reading, Table.keys_append, tag,
    Table.keys_map _ fun value : Value => value.toJson ctx.schema, Table.keys_append]

/-! ### What is read -/

theorem get?_reading (h : e.Laid ctx) {f : Field} (declared : f ∈ (e.type ctx.schema).fields) :
    Table.get? (e.reading ctx) f.name =
      (Table.get? e.values f.name).map fun value => Value.ofJson (value.toJson ctx.schema) := by
  have untagged := EntityType.get?_tagEntry Value.string fun _ found =>
    (EntityType.ne_separateTag found declared).symm
  rw [reading, Table.get?_append, untagged, Option.none_or,
    Table.get?_map _ fun value : Value => Value.ofJson (value.toJson ctx.schema), Table.get?_append,
    Table.get?_eq_none_iff.2 (h.undeclared declared), Option.or_none]

end Laid

theorem get?_reading_tag {tag : TypeTag} (found : (e.type ctx.schema).separateTag? = some tag) :
    Table.get? (e.reading ctx) tag.key = some (.string tag.value) := by
  rw [reading, Table.get?_append, EntityType.tagEntry, found]
  simp [Table.get?]

/-- Under a key that is neither the tag's nor declared is a custom property. -/
theorem get?_reading_extra {key : String}
    (other : ∀ tag, (e.type ctx.schema).separateTag? = some tag → tag.key ≠ key)
    (unset : key ∉ Table.keys e.values) :
    Table.get? (e.reading ctx) key =
      (Table.get? e.extras key).map fun value => Value.ofJson (value.toJson ctx.schema) := by
  rw [reading, Table.get?_append, EntityType.get?_tagEntry _ other, Option.none_or,
    Table.get?_map _ fun value : Value => Value.ofJson (value.toJson ctx.schema), Table.get?_append,
    Table.get?_eq_none_iff.2 unset, Option.none_or]

/-- The canonical form has distinct keys at every depth if the properties are written so. -/
theorem Laid.keysDistinct_toJson (h : e.Laid ctx)
    (written : ∀ entry ∈ e.values ++ e.extras, (entry.2.toJson ctx.schema).KeysDistinct) :
    (e.toJson ctx.schema).KeysDistinct := by
  rw [toJson, h.canonical_eq]
  apply Json.KeysDistinct.object (h.distinct_written Json.string (·.toJson ctx.schema))
  intro entry member
  rcases List.mem_append.1 member with tagged | held
  · obtain ⟨tag, _, rfl⟩ := EntityType.mem_tagEntry tagged
    exact .string _
  · obtain ⟨property, inside, rfl⟩ := List.mem_map.1 held
    exact written property inside

/-- What the canonical form is read as: the properties that are not written as null, after the
tag. -/
theorem Laid.ofJson_canonical_eq (h : e.Laid ctx) :
    Mapping.ofJson (e.canonical ctx.schema) = (e.type ctx.schema).tagEntry .string ++
      ((e.values ++ e.extras).filter fun entry => !(entry.2.toJson ctx.schema).isNull).map
        fun entry => (entry.1, Value.ofJson (entry.2.toJson ctx.schema)) := by
  have tag : ((e.type ctx.schema).tagEntry Json.string).filter (!·.2.isNull) =
      (e.type ctx.schema).tagEntry Json.string := by
    rw [List.filter_eq_self]
    intro entry member
    obtain ⟨tag, -, rfl⟩ := EntityType.mem_tagEntry member
    rfl
  rw [Mapping.ofJson, Value.mappingOfJson_eq, h.canonical_eq, List.filter_append, tag,
    List.map_append, EntityType.tagEntry_map, List.filter_map, List.map_map]
  rfl

/-- Nothing is left out of what is read if nothing is written as null. -/
theorem Laid.ofJson_canonical (h : e.Laid ctx)
    (written : ∀ entry ∈ e.values ++ e.extras, (entry.2.toJson ctx.schema).isNull = false) :
    Mapping.ofJson (e.canonical ctx.schema) = e.reading ctx := by
  rw [h.ofJson_canonical_eq, List.filter_eq_self.2]
  · rfl
  · intro entry member
    rw [written entry member]
    rfl

/-- What makes an entity one that can be built again: its canonical form has distinct keys and is
read as it stands, and building what was read gives the entity, with hooks of some sort to be
called. -/
structure Rebuilds (H : Hook → Prop) (ctx : Context) (e : Entity) : Prop where
  distinct : (e.toJson ctx.schema).KeysDistinct
  read : Mapping.ofJson (e.canonical ctx.schema) = e.reading ctx
  back : (ctx.build e.typeKey (e.reading ctx)).Gives H e

end Entity

end Dossier
