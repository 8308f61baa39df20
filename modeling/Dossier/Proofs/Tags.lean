import Mathlib.Data.List.Nodup
import Dossier.Catalog.Types
import Dossier.Proofs.Arranging
import Dossier.Proofs.Editing

/-!
# Tags

A tag whose key is no declared field is the first thing an entity is written with.
Construction takes it out of what was supplied, but setting a property does not
know of it: where custom properties are kept, one can be set under the tag's key,
and it takes the tag's place in the canonical form. `Entity.Edited.canonical_tagged`
says what the form is after any sequence of setting and clearing: the tag, the set
fields and the custom properties, all under keys of their own, unless the tag's key
was set last and not cleared.
-/

namespace Dossier

namespace Table

variable {α : Type}

/-- Entries put behind a first one: an entry of its key goes into its place. -/
theorem insertAll_cons {key : String} {value : α} {before entries : Table α}
    (fresh : key ∉ before.keys) (distinct : Distinct (before ++ entries)) :
    insertAll ((key, value) :: before) entries =
      (key, (entries.get? key).getD value) :: (before ++ entries.erase key) := by
  induction entries generalizing value before with
  | nil => simp [insertAll, erase]
  | cons entry entries ih =>
    obtain ⟨other, new⟩ := entry
    have apart : other ∉ keys before ∧ other ∉ keys entries ∧ Distinct (before ++ entries) := by
      simp only [Distinct, keys, List.map_append, List.map_cons] at distinct ⊢
      have parts := List.nodup_cons.1 (List.nodup_middle.1 distinct)
      simpa [and_assoc] using parts
    show insertAll (insert ((key, value) :: before) other new) entries = _
    -- the entry in front changes its value where it stands, and all others go behind
    by_cases same : key = other
    · subst same
      have later := Table.get?_eq_none_iff.2 apart.2.1
      rw [insert, if_pos rfl, ih fresh apart.2.2, later]
      simp [get?, erase]
    · have put : insert before other new = before ++ [(other, new)] :=
        insert_of_absent apart.1 new
      have still : key ∉ keys (before ++ [(other, new)]) := by
        simp only [keys, List.map_append, List.mem_append, not_or] at fresh ⊢
        exact ⟨fresh, by simpa using same⟩
      rw [insert, if_neg same, put, ih still (by simpa using distinct)]
      simp [get?, erase, Ne.symm same]

theorem length_erase {t : Table α} (distinct : t.Distinct) {key : String} {value : α}
    (found : t.get? key = some value) : (t.erase key).length + 1 = t.length := by
  induction t with
  | nil => cases found
  | cons entry t ih =>
    obtain ⟨other, held⟩ := entry
    obtain ⟨apart, later⟩ := List.nodup_cons.1 distinct
    by_cases same : other = key
    · subst same
      have rest : erase t other = t := erase_of_absent apart
      rw [erase, List.filter_cons_of_neg (by simp)]
      show (erase t other).length + 1 = t.length + 1
      rw [rest]
    · rw [get?, if_neg same] at found
      rw [erase, List.filter_cons_of_pos (by simpa using same)]
      show (erase t key).length + 1 + 1 = t.length + 1
      rw [ih later found]

theorem erase_append (s t : Table α) (key : String) :
    erase (s ++ t) key = s.erase key ++ t.erase key := List.filter_append ..

theorem erase_map {β : Type} (t : Table α) (f : α → β) (key : String) :
    erase (t.map fun entry => (entry.1, f entry.2)) key =
      (t.erase key).map fun entry => (entry.1, f entry.2) := by
  rw [erase, List.filter_map]
  rfl

end Table

/-! ## Edits -/

/-- The setting of a property, or its clearing. -/
inductive Edit where
  | set (name : String)
  | unset (name : String)
  deriving DecidableEq, Repr

/-- Whether edits, the last first, leave a custom property of the name set. -/
def Edit.leave (name : String) : List Edit → Bool
  | [] => false
  | set other :: earlier => other = name || leave name earlier
  | unset other :: earlier => other ≠ name && leave name earlier

namespace Entity

/-- The entities that come of a construction and of edits after it, the last first, each in any
context of a schema. What was supplied to the construction has distinct keys. -/
inductive Edited : Schema → Entity → List Edit → Prop where
  | made {ctx : Context} {type : TypeKey} {supplied : Mapping} {store after : Store} {e : Entity}
    (distinct : Table.Distinct supplied)
    (run : (ofMapping ctx type supplied).run.run store = (.ok e, after)) : Edited ctx.schema e []
  | set {ctx : Context} {e changed : Entity} {edits : List Edit} {name : String} {value : Value}
    {store after : Store} (before : Edited ctx.schema e edits)
    (run : (e.set ctx name value).run.run store = (.ok changed, after)) :
    Edited ctx.schema changed (.set name :: edits)
  | unset {schema : Schema} {e changed : Entity} {edits : List Edit} {name : String}
    {cleared : Option Value} (before : Edited schema e edits)
    (run : e.unset schema name = .ok (cleared, changed)) :
    Edited schema changed (.unset name :: edits)

variable {schema : Schema} {ctx : Context} {e changed : Entity} {edits : List Edit}
  {name key : String}

theorem distinct_set (distinct : Table.Distinct e.extras) {value : Value} {store after : Store}
    (run : (e.set ctx name value).run.run store = (.ok changed, after)) :
    Table.Distinct changed.extras := by
  rcases set_ok run with ⟨f, -, -, held, -, rfl⟩ | ⟨-, -, rfl⟩
  · exact distinct
  · exact distinct.insert name value

theorem distinct_unset (distinct : Table.Distinct e.extras) {cleared : Option Value}
    (run : e.unset schema name = .ok (cleared, changed)) : Table.Distinct changed.extras := by
  rcases unset_ok run with ⟨f, -, -, -, -, rfl⟩ | ⟨-, -, rfl⟩
  · exact distinct
  · exact distinct.sublist (List.filter_sublist.map _)

/-- Under a key that is not declared there is a custom property once it was set. -/
theorem extra_set (undeclared : (e.type ctx.schema).field? key = none) {value : Value}
    {store after : Store} (run : (e.set ctx name value).run.run store = (.ok changed, after)) :
    (Table.get? changed.extras key).isSome = (name = key || (Table.get? e.extras key).isSome) := by
  rcases set_ok run with ⟨f, declared, rfl, held, -, rfl⟩ | ⟨-, -, rfl⟩
  · simp [EntityType.ne_of_undeclared undeclared declared]
  · by_cases same : name = key <;> simp [same]

/-- Under a key that is not declared there is no custom property once it was cleared. -/
theorem extra_unset (undeclared : (e.type schema).field? key = none) {cleared : Option Value}
    (run : e.unset schema name = .ok (cleared, changed)) :
    (Table.get? changed.extras key).isSome = (name ≠ key && (Table.get? e.extras key).isSome) := by
  rcases unset_ok run with ⟨f, declared, rfl, -, -, rfl⟩ | ⟨-, -, rfl⟩
  · simp [EntityType.ne_of_undeclared undeclared declared]
  · by_cases same : name = key <;> simp [same]

theorem typeKey_set {value : Value} {store after : Store}
    (run : (e.set ctx name value).run.run store = (.ok changed, after)) :
    changed.typeKey = e.typeKey := by
  rcases set_ok run with ⟨f, -, -, held, -, rfl⟩ | ⟨-, -, rfl⟩ <;> rfl

theorem typeKey_unset {cleared : Option Value}
    (run : e.unset schema name = .ok (cleared, changed)) : changed.typeKey = e.typeKey := by
  rcases unset_ok run with ⟨f, -, -, -, -, rfl⟩ | ⟨-, -, rfl⟩ <;> rfl

namespace Edited

theorem distinct_extras (h : Edited schema e edits) : Table.Distinct e.extras := by
  induction h with
  | made distinct run =>
    exact (ofMapping_arranged distinct run).laid.distinct
  | set _ run before => exact distinct_set before run
  | unset _ run before => exact distinct_unset before run

theorem apart (h : Edited schema e edits) : e.Apart schema := by
  induction h with
  | made distinct run =>
    exact (ofMapping_arranged distinct run).laid.fits.undeclared
  | set _ run before => exact before.set run
  | unset _ run before => exact before.unset run

/-- There is a custom property under the tag's key if the edits leave one. By induction on the
edits: construction leaves none. -/
theorem isSome_extra (h : Edited schema e edits) {tag : TypeTag}
    (tagged : (e.type schema).separateTag? = some tag) :
    (Table.get? e.extras tag.key).isSome = Edit.leave tag.key edits := by
  induction h with
  | made distinct run =>
    have absent := (ofMapping_arranged distinct run).laid.untagged tag tagged
    rw [Table.get?_eq_none_iff.2 absent]
    rfl
  | @set ctx e changed edits name value store after _ run before =>
    have same : changed.type ctx.schema = e.type ctx.schema := by rw [type, typeKey_set run, type]
    rw [same] at tagged
    rw [extra_set (EntityType.field?_separateTag tagged) run, before tagged]
    rfl
  | @unset schema e changed edits name cleared _ run before =>
    have same : changed.type schema = e.type schema := by rw [type, typeKey_unset run, type]
    rw [same] at tagged
    rw [extra_unset (EntityType.field?_separateTag tagged) run, before tagged]
    rfl

theorem undeclared_fields (schema : Schema) (e : Entity) {key : String}
    (undeclared : (e.type schema).field? key = none) : key ∉ Table.keys (e.fields schema) := by
  intro member
  obtain ⟨⟨_, value⟩, there, rfl⟩ := List.mem_map.1 member
  obtain ⟨f, declared, held⟩ := List.mem_filterMap.1 there
  obtain ⟨_, -, same⟩ := Option.map_eq_some_iff.1 held
  exact EntityType.ne_of_undeclared undeclared declared (Prod.mk.inj same).1

/-- The set fields and the custom properties have distinct names. -/
theorem distinct_properties (h : Edited schema e edits) :
    Table.Distinct (e.fields schema ++ e.extras) := by
  rw [Table.Distinct, Table.keys_append, List.nodup_append]
  refine ⟨distinct_fields schema e, h.distinct_extras, ?_⟩
  rintro name stored other custom rfl
  exact undeclared_fields schema e (h.apart name custom) stored

/-- What stands under the tag's key: the tag, or the custom property that has taken its place. -/
theorem canonical_eq (h : Edited schema e edits) {tag : TypeTag}
    (tagged : (e.type schema).separateTag? = some tag) :
    e.canonical schema =
      (tag.key, ((Table.get? e.extras tag.key).map (·.toJson schema)).getD (.string tag.value)) ::
        (e.fields schema ++ Table.erase e.extras tag.key).map
          fun entry => (entry.1, entry.2.toJson schema) := by
  have absent := undeclared_fields schema e (EntityType.field?_separateTag tagged)
  have distinct : Table.Distinct ((e.fields schema ++ e.extras).map
      fun entry => (entry.1, entry.2.toJson schema)) := by
    rw [Table.Distinct, Table.keys_map _ fun value : Value => value.toJson schema]
    exact h.distinct_properties
  rw [canonical_eq_ofEntries, EntityType.tagEntry, tagged]
  have fresh : tag.key ∉ Table.keys ([] : Table Json) := List.not_mem_nil
  refine (Table.insertAll_cons fresh distinct).trans ?_
  rw [Table.get?_map _ fun value : Value => value.toJson schema, Table.get?_append,
    Table.get?_eq_none_iff.2 absent, Option.none_or, List.nil_append,
    Table.erase_map _ fun value : Value => value.toJson schema, Table.erase_append,
    Table.erase_of_absent absent]

/-- **Tags come first.** After construction and any edits, an entity of a type whose tag is no field
is written as an entry under the tag's key, then its set fields in the order of declaration, then
its other custom properties as they are stored, all under keys of their own. The first entry is the
tag, and there is one for every field and custom property beside it, unless the edits leave a custom
property of the tag's key: then it is that property, and there is no entry for the tag. -/
theorem canonical_tagged (h : Edited schema e edits) {tag : TypeTag}
    (tagged : (e.type schema).separateTag? = some tag) :
    Table.Distinct (e.canonical schema) ∧
    (Edit.leave tag.key edits = false →
      e.canonical schema = (tag.key, .string tag.value) :: (e.fields schema ++ e.extras).map
        (fun entry => (entry.1, entry.2.toJson schema)) ∧
      (e.canonical schema).length = 1 + (e.fields schema).length + e.extras.length) ∧
    (Edit.leave tag.key edits = true →
      ∃ value, Table.get? e.extras tag.key = some value ∧
        e.canonical schema = (tag.key, value.toJson schema) ::
          (e.fields schema ++ Table.erase e.extras tag.key).map
            (fun entry => (entry.1, entry.2.toJson schema)) ∧
        (e.canonical schema).length = (e.fields schema).length + e.extras.length) := by
  have whole := h.canonical_eq tagged
  have custom := h.isSome_extra tagged
  refine ⟨?_, ?_, ?_⟩
  · rw [canonical_eq_ofEntries]
    exact Table.distinct_ofEntries _
  · intro clear
    rw [clear] at custom
    -- no custom property has taken the key of the tag
    have none : Table.get? e.extras tag.key = none :=
      Option.not_isSome_iff_eq_none.1 (by simp [custom])
    have written : e.canonical schema = (tag.key, .string tag.value) ::
        (e.fields schema ++ e.extras).map fun entry => (entry.1, entry.2.toJson schema) := by
      rw [whole, none, Table.erase_of_absent (Table.get?_eq_none_iff.1 none)]
      rfl
    refine ⟨written, ?_⟩
    rw [written, List.length_cons, List.length_map, List.length_append]
    omega
  · intro left
    rw [left] at custom
    -- one has, and is written in the place of the tag
    obtain ⟨value, found⟩ := Option.isSome_iff_exists.1 custom
    have written : e.canonical schema = (tag.key, value.toJson schema) ::
        (e.fields schema ++ Table.erase e.extras tag.key).map
          fun entry => (entry.1, entry.2.toJson schema) := by
      rw [whole, found]
      rfl
    refine ⟨value, found, written, ?_⟩
    have fewer := Table.length_erase h.distinct_extras found
    rw [written, List.length_cons, List.length_map, List.length_append]
    omega

end Edited

end Entity

/-! ## A tag that is written over -/

namespace Catalog

/-- The catalog's types, each of which keeps custom properties. -/
def lenientContext : Context :=
  { Request.bareContext with config := { allowCustomProperties := true } }

/-- A URI with a custom property. -/
def uriWith (name value : String) : Entity :=
  ⟨uriKey, [("value", .string "here")], [(name, .string value)]⟩

theorem uriWith_edited (name value : String) (undeclared : uriType.field? name = none) :
    Entity.Edited lenientContext.schema (uriWith name value) [.set name] := by
  obtain ⟨after, made⟩ : ∃ after, (Entity.ofMapping lenientContext uriKey
      [("value", .string "here")]).run.run {} =
        (.ok ⟨uriKey, [("value", .string "here")], []⟩, after) := ⟨_, rfl⟩
  have type : (⟨uriKey, [("value", .string "here")], []⟩ : Entity).type lenientContext.schema =
    uriType := rfl
  have run : (Entity.set lenientContext ⟨uriKey, [("value", .string "here")], []⟩ name
      (.string value)).run.run {} = (.ok (uriWith name value), {}) := by
    unfold Entity.set
    simp only [type, undeclared]
    rfl
  exact .set (.made (by decide) made) run

theorem notedUri_canonical :
    ((uriWith "note" "n").canonical lenientContext.schema).length = 3 ∧
    (uriWith "note" "n").canonical lenientContext.schema =
      [("xsi:type", .string "URIObjectType"), ("value", .string "here"), ("note", .string "n")] := by
  have edited := uriWith_edited "note" "n" rfl
  have tagged : ((uriWith "note" "n").type lenientContext.schema).separateTag? =
    some ⟨"xsi:type", "URIObjectType"⟩ := rfl
  obtain ⟨-, clear, -⟩ := edited.canonical_tagged tagged
  obtain ⟨written, length⟩ := clear rfl
  exact ⟨length, written⟩

/-- A URI whose custom property `xsi:type` says that it is a file is written as one, and with one
entry less than it has properties and a tag. -/
theorem retaggedUri_canonical :
    Entity.Edited lenientContext.schema (uriWith "xsi:type" "FileObjectType") [.set "xsi:type"] ∧
    ((uriWith "xsi:type" "FileObjectType").type lenientContext.schema).separateTag? =
      some ⟨"xsi:type", "URIObjectType"⟩ ∧
    (uriWith "xsi:type" "FileObjectType").canonical lenientContext.schema =
      [("xsi:type", .string "FileObjectType"), ("value", .string "here")] ∧
    1 + ((uriWith "xsi:type" "FileObjectType").fields lenientContext.schema).length +
      (uriWith "xsi:type" "FileObjectType").extras.length = 3 :=
  ⟨uriWith_edited _ _ rfl, rfl, rfl, rfl⟩

end Catalog

end Dossier
