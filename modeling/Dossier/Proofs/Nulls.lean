import Dossier.Proofs.Arranging
import Dossier.Proofs.Numbers

/-!
# What is written as null

Of all values only a number that is not finite is written as null, and readers
leave nulls out. What an entity is read as from its canonical form is therefore
all of it but such numbers, and in what was built of a document they are those
that a text of the document spells, unless they have come with a default
(`Entity.ofJson_nulls`).
-/

namespace Dossier

namespace Json

/-- The documents that a document is made of. -/
def parts : Json → List Json
  | array items => items
  | object entries => entries.map (·.2)
  | _ => []

/-- A document is in another, at any depth, or is that document. -/
inductive Occurs (inner : Json) : Json → Prop where
  | here : Occurs inner inner
  | part {json whole : Json} (member : json ∈ whole.parts) (inside : Occurs inner json) :
    Occurs inner whole

theorem Occurs.trans {inner json whole : Json} (inside : inner.Occurs json)
    (outer : json.Occurs whole) : inner.Occurs whole := by
  induction outer with
  | here => exact inside
  | part member _ ih => exact .part member ih

theorem Occurs.eq_of_string {inner : Json} {s : String} (h : inner.Occurs (.string s)) :
    inner = .string s := by
  cases h with
  | here => rfl
  | part member => exact absurd member List.not_mem_nil

theorem occurs_null {json : Json} (h : json.isNull = true) : Json.null.Occurs json := by
  cases json with
  | null => exact .here
  | _ => cases h

/-- A text of the document is read as the number. -/
def Spells (x : Binary64) (json : Json) : Prop :=
  ∃ s, (Json.string s).Occurs json ∧ numberOfText? s = some x

end Json

namespace Value

variable {x : Binary64} {u : Value} {json : Json}

/-! ## What documents are read as -/

theorem parts_ofJson (json : Json) :
    ∀ v ∈ (ofJson json).parts, ∃ part ∈ json.parts, v = ofJson part := by
  intro v member
  cases json with
  | array items =>
    rw [ofJson, parts, itemsOfJson_eq] at member
    obtain ⟨item, kept, rfl⟩ := List.mem_map.1 member
    exact ⟨item, (List.mem_filter.1 kept).1, rfl⟩
  | object entries =>
    rw [ofJson, parts, mappingOfJson_eq, List.map_map] at member
    obtain ⟨entry, kept, rfl⟩ := List.mem_map.1 member
    exact ⟨entry.2, List.mem_map_of_mem (List.mem_filter.1 kept).1, rfl⟩
  | number n =>
    rw [ofJson] at member
    rcases ofNumber_cases n with ⟨_, same⟩ | ⟨_, same⟩
    all_goals
      rw [same] at member
      exact absurd member List.not_mem_nil
  | _ => exact absurd member List.not_mem_nil

/-- What is in the value of a document is the value of a document in it. By induction on where it
is. -/
theorem inside_ofJson (inside : u.Inside (ofJson json)) :
    ∃ inner, inner.Occurs json ∧ u = ofJson inner := by
  generalize same : ofJson json = value at inside
  induction inside generalizing json with
  | here => exact ⟨json, .here, same.symm⟩
  | part member _ ih =>
    obtain ⟨part, there, read⟩ := parts_ofJson json _ (same ▸ member)
    obtain ⟨inner, occurs, same⟩ := ih read.symm
    exact ⟨inner, .part there occurs, same⟩

/-- A number that the value of a document yields is finite, or a text of the document spells it. -/
theorem yields_ofJson (yields : (ofJson json).Yields x) : (∃ y, x = .finite y) ∨ json.Spells x := by
  obtain ⟨u, inside, taken⟩ := yields
  obtain ⟨inner, occurs, rfl⟩ := inside_ofJson inside
  have yields : (ofJson inner).Yields x := ⟨_, .here, taken⟩
  cases inner with
  | string s => exact .inr ⟨s, occurs, read_of_yields_string yields⟩
  | number n =>
    rw [ofJson] at yields
    rcases ofNumber_cases n with ⟨i, same⟩ | ⟨y, same⟩
    · rw [same] at yields
      exact .inl (finite_of_yields_integer yields)
    · rw [same] at yields
      exact .inl ⟨y, (eq_of_yields_number yields).symm⟩
  | _ => cases taken

/-- An array is read in full where there is no null. -/
theorem length_itemsOfJson (absent : ¬Json.null.Occurs json) {items : List Json}
    (occurs : (Json.array items).Occurs json) : (itemsOfJson items).length = items.length := by
  have present : ∀ item ∈ items, (!item.isNull) = true := by
    intro item member
    rw [Bool.not_eq_true', ← Bool.not_eq_true]
    intro null
    exact absent (.trans (.part member (Json.occurs_null null)) occurs)
  rw [itemsOfJson_eq, List.filter_eq_self.2 present, List.length_map]

/-! ## What values are written as -/

theorem Inside.trans {v w : Value} (inside : u.Inside v) (outer : v.Inside w) : u.Inside w := by
  induction outer with
  | here => exact inside
  | part member _ ih => exact .part member ih

/-- A number that is not finite. -/
def isLost : Value → Bool
  | .number x => x.toFinite?.isNone
  | _ => false

theorem isNull_toJson (schema : Schema) (v : Value) : (v.toJson schema).isNull = v.isLost := by
  cases v with
  | number x => cases x <;> rfl
  | _ => rfl

end Value

/-- What is written of an entity is texts and what its properties are written as. -/
theorem Entity.written_of_mem_canonical {schema : Schema} {e : Entity} :
    ∀ entry ∈ e.canonical schema, (∃ s, entry.2 = .string s) ∨
      ∃ property ∈ e.values ++ e.extras, entry.2 = property.2.toJson schema := by
  rw [canonical_eq_ofEntries]
  refine Table.forall_insertAll (P := fun json => (∃ s, json = .string s) ∨
    ∃ property ∈ e.values ++ e.extras, json = property.2.toJson schema) (List.forall_mem_nil _) ?_
  intro entry member
  rcases List.mem_append.1 member with tagged | held
  · obtain ⟨tag, -, rfl⟩ := EntityType.mem_tagEntry tagged
    exact .inl ⟨tag.value, rfl⟩
  · obtain ⟨property, there, rfl⟩ := List.mem_map.1 held
    rcases List.mem_append.1 there with declared | custom
    · obtain ⟨f, -, found⟩ := List.mem_filterMap.1 declared
      obtain ⟨value, stored, rfl⟩ := Option.map_eq_some_iff.1 found
      exact .inr ⟨(f.name, value), List.mem_append_left _ (Table.mem_of_get? stored), rfl⟩
    · exact .inr ⟨property, List.mem_append_right _ custom, rfl⟩

/-- What is written of a record is texts and what is written of the entity in it. -/
theorem RelatedObject.written_of_mem_canonical {schema : Schema} {r : RelatedObject} :
    ∀ entry ∈ r.canonical schema, (∃ s, entry.2 = .string s) ∨
      ∃ e, r.embedded? = some e ∧ entry ∈ e.canonical schema := by
  obtain ⟨holding, relationship⟩ := r
  have inner : ∀ entry ∈ holding.canonical schema, (∃ s, entry.2 = .string s) ∨
      ∃ e, embedded? ⟨holding, relationship⟩ = some e ∧ entry ∈ e.canonical schema := by
    intro entry member
    cases holding with
    | inline e => exact .inr ⟨e, rfl, member⟩
    | byReference idref =>
      rw [List.mem_singleton.1 member]
      exact .inl ⟨idref, rfl⟩
  cases relationship with
  | none => exact inner
  | some relationship =>
    rintro ⟨key, json⟩ member
    rcases Table.mem_of_mem_insert member with ⟨-, rfl⟩ | before
    · exact .inl ⟨relationship, rfl⟩
    · exact inner (key, json) before

namespace Value

variable {schema : Schema} {v : Value} {inner : Json}

/-- What a value is written as is made of texts and of what values in it are written as. -/
theorem parts_toJson {part : Json} (member : part ∈ (v.toJson schema).parts) :
    (∃ s, part = .string s) ∨ ∃ u : Value, u.Inside v ∧ part = u.toJson schema := by
  -- beside the tag, a text, an entity is written property by property
  have property : ∀ e : Entity, ∀ entry ∈ e.canonical schema, (∃ s, entry.2 = .string s) ∨
      ∃ u : Value, u.Inside (.entity e) ∧ entry.2 = u.toJson schema := by
    intro e entry written
    rcases e.written_of_mem_canonical entry written with text | ⟨property, there, same⟩
    · exact .inl text
    · exact .inr ⟨property.2, .part (List.mem_map_of_mem there) .here, same⟩
  cases v with
  | list items =>
    rw [toJson, Json.parts, itemsToJson_eq] at member
    obtain ⟨item, there, rfl⟩ := List.mem_map.1 member
    exact .inr ⟨item, .part there .here, rfl⟩
  | mapping entries =>
    rw [toJson, Json.parts, entriesToJson_eq, List.map_map] at member
    obtain ⟨entry, there, rfl⟩ := List.mem_map.1 member
    exact .inr ⟨entry.2, .part (List.mem_map_of_mem there) .here, rfl⟩
  | entity e =>
    rw [toJson, Json.parts] at member
    obtain ⟨entry, written, rfl⟩ := List.mem_map.1 member
    exact property e entry written
  | related r =>
    rw [toJson, Json.parts] at member
    obtain ⟨entry, written, rfl⟩ := List.mem_map.1 member
    rcases r.written_of_mem_canonical entry written with text | ⟨e, held, written⟩
    · exact .inl text
    · have there : Value.entity e ∈ (Value.related r).parts := by simp [parts, held]
      rcases property e entry written with text | ⟨u, inside, same⟩
      · exact .inl text
      · exact .inr ⟨u, .part there inside, same⟩
  | number x => cases x <;> exact absurd member List.not_mem_nil
  | _ => exact absurd member List.not_mem_nil

/-- What occurs in what a value is written as is a text, or what a value in it is written as. By
induction on where it occurs. -/
theorem occurs_toJson (occurs : inner.Occurs (v.toJson schema)) :
    (∃ s, inner = .string s) ∨ ∃ u : Value, u.Inside v ∧ inner = u.toJson schema := by
  generalize same : v.toJson schema = json at occurs
  induction occurs generalizing v with
  | here => exact .inr ⟨v, .here, same.symm⟩
  | part member occurs ih =>
    rcases parts_toJson (same ▸ member) with ⟨s, rfl⟩ | ⟨w, inside, written⟩
    · exact .inl ⟨s, occurs.eq_of_string⟩
    · exact (ih written.symm).imp_right fun ⟨u, deeper, same⟩ => ⟨u, deeper.trans inside, same⟩

/-- A null is what a number that is not finite is written as. -/
theorem lost_of_occurs_null (occurs : Json.null.Occurs (v.toJson schema)) :
    ∃ x : Binary64, x.toFinite? = none ∧ (number x).Inside v := by
  rcases occurs_toJson occurs with ⟨s, text⟩ | ⟨u, inside, written⟩
  · cases text
  · have lost : u.isLost = true := by
      rw [← isNull_toJson schema, ← written]
      rfl
    unfold isLost at lost
    split at lost
    · next x => exact ⟨x, Option.isNone_iff_eq_none.1 lost, inside⟩
    · cases lost

end Value

/-- The numbers of what is read of a document are finite, or a text of the document spells them. -/
theorem Mapping.sourced_ofJson {P : Binary64 → Prop} {entries : Table Json}
    (finite : ∀ x, P (.finite x)) (spelt : ∀ x, (Json.object entries).Spells x → P x) :
    (Mapping.ofJson entries).All (·.Sourced P) := by
  intro entry member x yields
  have whole : (Value.ofJson (.object entries)).Yields x :=
    Value.yields_iff.2 (.inr ⟨entry.2, List.mem_map_of_mem member, yields⟩)
  rcases Value.yields_ofJson whole with ⟨y, rfl⟩ | spells
  · exact finite y
  · exact spelt x spells

theorem Entity.sourced_of_ofJson {ctx : Context} {type : TypeKey} {entries : Table Json}
    {store after : Store} {e : Entity}
    (run : (ofJson ctx type (.object entries)).run.run store = (.ok e, after)) :
    e.Sourced fun x => x.toFinite? = none →
      (Json.object entries).Spells x ∨ ctx.Brings x := by
  apply And.right
  refine (ctx.build_sourced ?_ ?_ type (Mapping.sourced_ofJson ?_ ?_)).of_finish run
  · intro x lost
    cases lost
  · intro x brings _
    exact .inr brings
  · intro x lost
    cases lost
  · intro x spells _
    exact .inl spells

/-- **Only numbers that are not finite are written as null**, whatever type, context and document an
entity comes of. There is such a number in it if there is a null in its canonical form, at any depth;
and each of them is spelt by a text of the document or has come with a default of the schema. What is
read of the canonical form is the tag and the properties that are set to anything else. Without a
null that is all of them, and no list is shortened. -/
theorem Entity.ofJson_nulls {ctx : Context} {type : TypeKey} {entries : Table Json}
    {store after : Store} {e : Entity} (distinct : entries.Distinct)
    (run : (ofJson ctx type (.object entries)).run.run store = (.ok e, after)) :
    (Json.null.Occurs (e.toJson ctx.schema) →
      ∃ x : Binary64, x.toFinite? = none ∧ (Value.number x).Inside (.entity e)) ∧
    (∀ x : Binary64, x.toFinite? = none → (Value.number x).Inside (.entity e) →
      (Json.object entries).Spells x ∨ ctx.Brings x) ∧
    Mapping.ofJson (e.canonical ctx.schema) = (e.type ctx.schema).tagEntry .string ++
      ((e.values ++ e.extras).filter fun entry => !entry.2.isLost).map
        (fun entry => (entry.1, Value.ofJson (entry.2.toJson ctx.schema))) ∧
    (¬Json.null.Occurs (e.toJson ctx.schema) →
      Mapping.ofJson (e.canonical ctx.schema) = e.reading ctx ∧
      ∀ items, (Json.array items).Occurs (e.toJson ctx.schema) →
        (Value.itemsOfJson items).length = items.length) := by
  have laid : e.Laid ctx :=
    (ofMapping_arranged (Value.distinct_mappingOfJson distinct) run).laid
  refine ⟨Value.lost_of_occurs_null (v := .entity e), fun x lost inside => ?_, ?_, fun absent =>
    ⟨laid.ofJson_canonical fun entry member => ?_, fun items => Value.length_itemsOfJson absent⟩⟩
  · exact sourced_of_ofJson run x ⟨_, inside, rfl⟩ lost
  · rw [laid.ofJson_canonical_eq]
    simp only [Value.isNull_toJson]
  · -- a property that is written as null would be a null in the canonical form
    rw [← Bool.not_eq_true]
    intro null
    have written : (entry.1, entry.2.toJson ctx.schema) ∈ e.canonical ctx.schema := by
      rw [laid.canonical_eq]
      exact List.mem_append_right _ (List.mem_map_of_mem member)
    exact absent (.part (List.mem_map_of_mem written) (Json.occurs_null null))

namespace Gauge

def key : TypeKey := ⟨"Gauge"⟩

/-- A context whose only type has numbers and no defaults. -/
def context : Context where
  schema := { typeOf := fun _ =>
    { name := "Gauge", typeName := "gauge"
      fields := [(Field.leaf "reading" .float).require, (Field.leaf "samples" .float).list] } }
  ids := .sequential
  clock := .fixed .epoch

def document : Table Json :=
  [("reading", .string "NaN"), ("samples", .array [.string "0", .string "inf"])]

def zero : Binary64 := .finite (.zero false)

/-- The entity of the document. Its reading is no number, and one of its samples is infinite. -/
def gauge : Entity where
  typeKey := key
  values :=
    [("reading", .number .nan), ("samples", .list [.number zero, .number (.infinite false)])]
  extras := []

theorem gauge_read : ∃ after,
    (Entity.ofJson context key (.object document)).run.run {} = (.ok gauge, after) := ⟨_, rfl⟩

theorem null_occurs : Json.null.Occurs (gauge.toJson context.schema) := by
  show Json.null.Occurs (.object
    [("reading", .null), ("samples", .array [.number (.float (.zero false)), .null])])
  exact .part List.mem_cons_self .here

theorem brings_nothing (x : Binary64) : ¬context.Brings x := by
  rintro ⟨_, f, declared, default, given, -⟩
  rcases List.mem_cons.1 declared with rfl | later
  · cases given
  · rw [List.mem_singleton.1 later] at given
    cases given

/-- The null in the canonical form of the gauge is for a number that the document spells, and what is
read of it is the sample that is left. -/
theorem gauge_spelt :
    (∃ x : Binary64, x.toFinite? = none ∧ (Value.number x).Inside (.entity gauge) ∧
      (Json.object document).Spells x) ∧
    Mapping.ofJson (gauge.canonical context.schema) =
      [("samples", .list [.number zero])] := by
  obtain ⟨after, run⟩ := gauge_read
  obtain ⟨lost, source, read, -⟩ := Entity.ofJson_nulls (by decide) run
  obtain ⟨x, notFinite, inside⟩ := lost null_occurs
  have spelt := (source x notFinite inside).resolve_right (brings_nothing x)
  exact ⟨⟨x, notFinite, inside, spelt⟩, read.trans rfl⟩

/-- A required reading that is set is written as null, and so is an item of a list: neither is read
again, and the gauge cannot be built of what is left. -/
theorem gauge_unread :
    (∃ after, (Entity.ofJson context key (.object document)).run.run {} = (.ok gauge, after)) ∧
    Json.null.Occurs (gauge.toJson context.schema) ∧
    Mapping.ofJson (gauge.canonical context.schema) =
      [("samples", .list [.number zero])] ∧
    ((Entity.ofJson context key (gauge.toJson context.schema)).run.run {}).1 =
      .error (.missingProperties "Gauge" ["reading"]) :=
  ⟨gauge_read, null_occurs, rfl, rfl⟩

end Gauge

end Dossier
