import Dossier.Document
import Dossier.Proofs.Failure
import Dossier.Proofs.Nulls
import Dossier.Proofs.Rounding

/-!
# Documents without nulls

A document is stripped by leaving out the nulls in its arrays and objects, at any
depth, and by making floats of the integers that do not fit 63 bits and a sign.
That is all that happens to a document that is read as a value and written again,
and nothing else than the stripped document counts when an entity is read of it;
values made of what documents are made of come back as they were
(`Json.conversion_strips`).
-/

namespace Dossier

namespace Json

/-- Documents are proved of by their parts. -/
theorem induction {P : Json → Prop} (step : ∀ json, (∀ part ∈ json.parts, P part) → P json)
    (json : Json) : P json := by
  apply step
  intro part member
  have smaller : sizeOf part < sizeOf json := by
    cases json with
    | array items =>
      have inside : sizeOf part < sizeOf items := List.sizeOf_lt_of_mem member
      rw [array.sizeOf_spec]
      omega
    | object entries =>
      obtain ⟨⟨key, held⟩, there, rfl⟩ := List.mem_map.1 member
      have inside : sizeOf (key, held) < sizeOf entries := List.sizeOf_lt_of_mem there
      rw [Prod.mk.sizeOf_spec] at inside
      rw [object.sizeOf_spec]
      show sizeOf held < _
      omega
    | _ => exact absurd member List.not_mem_nil
  exact induction step part
termination_by sizeOf json

/-- The number as a value holds it: an integer of 63 bits and a sign stays one, a larger one is
rounded. -/
def Number.narrowed : Number → Number
  | .integer value lower upper =>
    if value < 9223372036854775808 then .integer value lower upper
    else
      match Binary64.ofInt value with
      | .finite x => .float x
      | _ => .integer value lower upper
  | .float x => .float x

mutual

/-- The document without the nulls in its arrays and objects, and with its numbers as values hold
them. -/
def stripped : Json → Json
  | .null => .null
  | .bool b => .bool b
  | .number n => .number n.narrowed
  | .string s => .string s
  | .array items => .array (strippedItems items)
  | .object entries => .object (strippedEntries entries)

def strippedItems : List Json → List Json
  | [] => []
  | item :: items =>
    if item.isNull then strippedItems items else stripped item :: strippedItems items

def strippedEntries : List (String × Json) → List (String × Json)
  | [] => []
  | (key, json) :: entries =>
    if json.isNull then strippedEntries entries
    else (key, stripped json) :: strippedEntries entries

end

theorem strippedItems_eq (items : List Json) :
    strippedItems items = (items.filter (!·.isNull)).map stripped := by
  induction items with
  | nil => rfl
  | cons item items ih =>
    rw [strippedItems]
    cases null : item.isNull <;> simp [null, ih]

theorem strippedEntries_eq (entries : List (String × Json)) :
    strippedEntries entries =
      (entries.filter (!·.2.isNull)).map fun entry => (entry.1, entry.2.stripped) := by
  induction entries with
  | nil => rfl
  | cons entry entries ih =>
    obtain ⟨key, json⟩ := entry
    rw [strippedEntries]
    cases null : json.isNull <;> simp [null, ih]

@[simp] theorem isNull_stripped (json : Json) : json.stripped.isNull = json.isNull := by
  cases json <;> rfl

/-- No null is left in what is not one itself. -/
theorem not_occurs_null_stripped {json : Json} (present : json.isNull = false) :
    ¬Json.null.Occurs json.stripped := by
  induction json using Json.induction with
  | step json ih =>
    intro occurs
    generalize same : json.stripped = whole at occurs
    cases occurs with
    | here =>
      rw [← isNull_stripped, same] at present
      cases present
    | part member inside =>
      subst same
      cases json with
      | array items =>
        rw [stripped, parts, strippedItems_eq] at member
        obtain ⟨item, kept, rfl⟩ := List.mem_map.1 member
        obtain ⟨there, present⟩ := List.mem_filter.1 kept
        exact ih item there (by simpa using present) inside
      | object entries =>
        rw [stripped, parts, strippedEntries_eq, List.map_map] at member
        obtain ⟨entry, kept, rfl⟩ := List.mem_map.1 member
        obtain ⟨there, present⟩ := List.mem_filter.1 kept
        exact ih entry.2 (List.mem_map_of_mem there) (by simpa using present) inside
      | _ => exact absurd member List.not_mem_nil

/-- A large integer becomes the float that is nearest to it. -/
theorem Number.narrowed_large {value : Int} (lower : -9223372036854775808 ≤ value)
    (upper : value < 18446744073709551616) (large : 9223372036854775808 ≤ value) :
    ∃ x : Binary64.Finite, (integer value lower upper).narrowed = .float x ∧ x.Nearest value := by
  have small : value.natAbs < 18446744073709551616 := by omega
  obtain ⟨x, rounded⟩ := Binary64.ofInt_finite small
  refine ⟨x, ?_, Binary64.nearest_ofInt rounded⟩
  rw [narrowed, if_neg (Int.not_lt.2 large), rounded]

end Json

/-! ## Reading and writing -/

namespace Value

theorem toJson_ofNumber (schema : Schema) (n : Json.Number) :
    (ofNumber n).toJson schema = .number n.narrowed := by
  cases n with
  | integer value lower upper =>
    rw [ofNumber, Json.Number.narrowed]
    split
    · next small =>
      have kept : (Int64.ofInt value).toInt = value :=
        Int64.toInt_ofInt_of_le lower (Int.lt_of_lt_of_le small (Int.le_refl _))
      rw [toJson, Json.ofInt64]
      congr 2
    · next large =>
      obtain ⟨x, rounded⟩ := @Binary64.ofInt_finite value (by omega)
      rw [rounded]
      rfl
  | float x => rfl

theorem ofNumber_narrowed (n : Json.Number) : ofNumber n.narrowed = ofNumber n := by
  cases n with
  | integer value lower upper =>
    rw [Json.Number.narrowed]
    split
    · rfl
    · next large =>
      obtain ⟨x, rounded⟩ := @Binary64.ofInt_finite value (by omega)
      rw [ofNumber, if_neg large, rounded]
      rfl
  | float x => rfl

/-- What a document is read as is written as the document stripped. -/
theorem toJson_ofJson (schema : Schema) {json : Json} (present : json.isNull = false) :
    (ofJson json).toJson schema = json.stripped := by
  induction json using Json.induction with
  | step json ih =>
    cases json with
    | null => cases present
    | number n => exact toJson_ofNumber schema n
    | array items =>
      rw [ofJson, toJson, itemsToJson_eq, itemsOfJson_eq, Json.stripped, Json.strippedItems_eq,
        List.map_map]
      congr 1
      refine List.map_congr_left fun item kept => ?_
      obtain ⟨member, present⟩ := List.mem_filter.1 kept
      exact ih item member (by simpa using present)
    | object entries =>
      rw [ofJson, toJson, entriesToJson_eq, mappingOfJson_eq, Json.stripped,
        Json.strippedEntries_eq, List.map_map]
      congr 1
      refine List.map_congr_left fun entry kept => ?_
      obtain ⟨member, present⟩ := List.mem_filter.1 kept
      exact Prod.ext rfl (ih entry.2 (List.mem_map_of_mem member) (by simpa using present))
    | _ => rfl

/-- A document and the document stripped are read as the same. -/
theorem ofJson_stripped (json : Json) : ofJson json.stripped = ofJson json := by
  induction json using Json.induction with
  | step json ih =>
    cases json with
    | number n => exact ofNumber_narrowed n
    | array items =>
      -- nothing that is left is null, so no more is left out in reading
      have present :
          ∀ item ∈ (items.filter (!·.isNull)).map Json.stripped, (!item.isNull) = true := by
        intro item member
        obtain ⟨item, kept, rfl⟩ := List.mem_map.1 member
        rw [Json.isNull_stripped]
        exact (List.mem_filter.1 kept).2
      rw [Json.stripped, ofJson, ofJson, itemsOfJson_eq, itemsOfJson_eq, Json.strippedItems_eq,
        List.filter_eq_self.2 present, List.map_map]
      congr 1
      exact List.map_congr_left fun item kept => ih item (List.mem_filter.1 kept).1
    | object entries =>
      have present : ∀ entry ∈ (entries.filter (!·.2.isNull)).map
          (fun entry => (entry.1, entry.2.stripped)), (!entry.2.isNull) = true := by
        intro entry member
        obtain ⟨entry, kept, rfl⟩ := List.mem_map.1 member
        rw [Json.isNull_stripped]
        exact (List.mem_filter.1 kept).2
      rw [Json.stripped, ofJson, ofJson, mappingOfJson_eq, mappingOfJson_eq,
        Json.strippedEntries_eq, List.filter_eq_self.2 present, List.map_map]
      congr 1
      refine List.map_congr_left fun entry kept => Prod.ext rfl ?_
      exact ih entry.2 (List.mem_map_of_mem (List.mem_filter.1 kept).1)
    | _ => rfl

end Value

theorem Mapping.ofJson_stripped (entries : Table Json) :
    Mapping.ofJson (Json.strippedEntries entries) = Mapping.ofJson entries :=
  Value.mapping.inj (Value.ofJson_stripped (.object entries))

/-! ## Entities of stripped documents -/

theorem Entity.ofJson_stripped (ctx : Context) (type : TypeKey) (json : Json) :
    ofJson ctx type json.stripped = ofJson ctx type json := by
  cases json with
  | object entries => exact congrArg (ofMapping ctx type) (Mapping.ofJson_stripped entries)
  | _ => rfl

namespace Document

/-- The document is the decoded one, or a text that the codec decodes as it. -/
inductive Holds (ctx : Context) (json : Json) : Document → Prop where
  | json : Holds ctx json (.json json)
  | text {encoded : String} (decoded : ctx.codec.decode encoded = .ok json) :
    Holds ctx json (.text encoded)

theorem Holds.toMapping {ctx : Context} {json : Json} {document : Document}
    (holds : document.Holds ctx json) : document.toMapping ctx = toMapping.ofJson json := by
  cases holds with
  | json => rfl
  | text decoded =>
    rw [Document.toMapping, decoded]
    rfl

theorem toMapping_stripped (json : Json) :
    toMapping.ofJson json.stripped = toMapping.ofJson json := by
  cases json with
  | object entries => exact congrArg Except.ok (Mapping.ofJson_stripped entries)
  | _ => rfl

end Document

/-- **Reading leaves out nulls and nothing else.** What a document other than a null is read as is
written as the document stripped, large integers being rounded to the nearest float. A document and
the document stripped are read as the same mapping, so the same comes of them when an entity is
read, also from texts and by the type that they name. A value made of what documents are made of is
read back from what it is written as. -/
theorem Json.conversion_strips (schema : Schema) :
    (∀ json : Json, json.isNull = false →
      (Value.ofJson json).toJson schema = json.stripped ∧ ¬Json.null.Occurs json.stripped) ∧
    (∀ (value : Int) (lower : -9223372036854775808 ≤ value)
      (upper : value < 18446744073709551616), 9223372036854775808 ≤ value →
        ∃ x : Binary64.Finite,
          (Json.number (.integer value lower upper)).stripped = .number (.float x) ∧
            x.Nearest value) ∧
    (∀ entries : Table Json,
      Mapping.ofJson (Json.strippedEntries entries) = Mapping.ofJson entries) ∧
    (∀ (ctx : Context) (type : TypeKey) (json : Json),
      Entity.ofJson ctx type json.stripped = Entity.ofJson ctx type json) ∧
    (∀ (ctx : Context) (json : Json) (document other : Document),
      document.Holds ctx json → other.Holds ctx json.stripped →
        other.parse ctx = document.parse ctx ∧
        ∀ name, other.parseAs ctx name = document.parseAs ctx name) ∧
    ∀ v : Value, v.Plain → Value.ofJson (v.toJson schema) = v := by
  refine ⟨fun json present => ⟨Value.toJson_ofJson schema present, ?_⟩, ?_,
    Mapping.ofJson_stripped, Entity.ofJson_stripped, ?_,
    fun v plain => (plain.restored schema).back⟩
  · exact Json.not_occurs_null_stripped present
  · intro value lower upper large
    obtain ⟨x, narrowed, nearest⟩ := Json.Number.narrowed_large lower upper large
    exact ⟨x, congrArg Json.number narrowed, nearest⟩
  · intro ctx json document other holds strips
    have same : other.toMapping ctx = document.toMapping ctx := by
      rw [strips.toMapping, holds.toMapping, Document.toMapping_stripped]
    refine ⟨?_, fun name => ?_⟩
    · rw [Document.parse, Document.parse, same]
    · rw [Document.parseAs, Document.parseAs, same]

namespace Stripping

/-- An object with nulls at two depths, and with an integer that is too large by one. -/
def nulled : Json :=
  .object [("id", .null),
    ("a", .array [.null, .number (.integer 9223372036854777857 (by decide) (by decide))])]

/-- 2^63 + 2^11 -/
def rounded : Binary64.Finite :=
  ⟨false, 4503599627370497, 1085, by decide, by decide, .inr (by decide)⟩

/-- What is left of it. -/
def bared : Json := .object [("a", .array [.number (.float rounded)])]

theorem ofInt_rounded : Binary64.ofInt 9223372036854777857 = .finite rounded := by decide +kernel

theorem nulled_stripped : nulled.stripped = bared := by
  simp [nulled, bared, Json.stripped, Json.strippedEntries, Json.strippedItems, Json.isNull,
    Json.Number.narrowed, ofInt_rounded]

/-- It is written without its nulls, and read as if it had none, from its text and by its type. -/
theorem nulled_strips :
    nulled.isNull = false ∧
    (Value.ofJson nulled).toJson Request.bareContext.schema = bared ∧
    rounded.Nearest 9223372036854777857 ∧
    (Document.text "\x7b\"id\":null,\"a\":[null,9223372036854777857]\x7d").parse
      Request.bareContext = (Document.json bared).parse Request.bareContext ∧
    Value.ofJson ((Value.list [.number (.finite rounded)]).toJson Request.bareContext.schema) =
      .list [.number (.finite rounded)] := by
  obtain ⟨written, large, -, -, parsed, back⟩ :=
    Json.conversion_strips Request.bareContext.schema
  refine ⟨rfl, (written nulled rfl).1.trans nulled_stripped, ?_, ?_, back _ (.list ?_)⟩
  · obtain ⟨x, narrowed, nearest⟩ :=
      large 9223372036854777857 (by decide) (by decide) (by decide)
    simp only [Json.stripped, Json.Number.narrowed, ofInt_rounded] at narrowed
    cases narrowed
    exact nearest
  · have bare : (Document.json bared).Holds Request.bareContext nulled.stripped :=
      nulled_stripped ▸ .json
    exact (parsed Request.bareContext nulled _ _ (.text rfl) bare).1.symm
  · intro item member
    rw [List.mem_singleton.1 member]
    exact .number rounded

end Stripping

end Dossier
