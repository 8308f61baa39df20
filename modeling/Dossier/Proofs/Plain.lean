import Dossier.Entity.Basic
import Dossier.Value.Json

/-!
# Values of documents

A value is plain if it could be that of a document: it is made of scalars, lists
and mappings, its numbers are finite and its keys distinct. What a document is
read as is plain, and a plain value is read back from the document that it is
written as (`Value.Plain.restored`).
-/

namespace Dossier

/-! ## Large integers

Integers from 2^63 to 2^64 are read as floats. -/

namespace Binary64

theorem log2_shiftLeft {n : Nat} (h : n ≠ 0) (k : Nat) : (n <<< k).log2 = n.log2 + k := by
  induction k with
  | zero => rfl
  | succ k ih =>
    have more : n <<< k ≠ 0 := by
      rw [Nat.shiftLeft_eq]
      exact Nat.mul_ne_zero h (Nat.ne_of_gt (Nat.two_pow_pos k))
    rw [Nat.shiftLeft_succ, Nat.log2_two_mul more, ih, Nat.add_assoc]

theorem shiftLeft_div_shiftLeft (m n k : Nat) : (m <<< k) / (n <<< k) = m / n := by
  rw [Nat.shiftLeft_eq, Nat.shiftLeft_eq, Nat.mul_div_mul_right _ _ (Nat.two_pow_pos k)]

theorem roundHalfEven_bounds (num den : Nat) :
    num / den ≤ roundHalfEven num den ∧ roundHalfEven num den ≤ num / den + 1 := by
  unfold roundHalfEven
  dsimp only
  split <;> omega

/-- A mantissa of 53 bits, or the next power of two, makes a finite number. -/
theorem pack_finite (negative : Bool) {mantissa shift : Nat} (low : 4503599627370496 ≤ mantissa)
    (high : mantissa ≤ 9007199254740992) (small : shift + 1 ≤ 2045) :
    ∃ x, pack negative mantissa shift = .finite x := by
  unfold pack
  split
  · exact ⟨_, rfl⟩
  · next large =>
    rw [dif_pos ⟨by omega, small⟩]
    exact ⟨_, rfl⟩

/-- The integers below 2^64 are far from the greatest number. -/
theorem ofInt_finite {value : Int} (small : value.natAbs < 18446744073709551616) :
    ∃ x, ofInt value = .finite x := by
  unfold ofInt ofFraction ofUnits
  generalize value.natAbs = n at small
  by_cases zero : n = 0
  · subst zero
    exact ⟨.zero _, rfl⟩
  · -- 53 binary digits are kept, so the mantissa is in bounds before and after rounding
    have bits : n.log2 ≤ 63 := Nat.lt_succ_iff.1 ((Nat.log2_lt zero).2 small)
    have shift : ((n <<< 1074) / 1).log2 - 52 = n.log2 + 1022 := by
      rw [Nat.div_one, log2_shiftLeft zero]
      omega
    have kept : (n <<< 1074) / (1 <<< (n.log2 + 1022)) = n * 4503599627370496 / 2 ^ n.log2 := by
      rw [show 1074 = 52 + 1022 from rfl, Nat.shiftLeft_add, Nat.shiftLeft_add,
        shiftLeft_div_shiftLeft, Nat.shiftLeft_eq, Nat.one_shiftLeft]
    have least := Nat.log2_self_le zero
    have most : n < 2 ^ n.log2 * 2 := Nat.lt_log2_self
    have low : 4503599627370496 ≤ n * 4503599627370496 / 2 ^ n.log2 := by
      rw [Nat.le_div_iff_mul_le (Nat.two_pow_pos _)]
      omega
    have high : n * 4503599627370496 / 2 ^ n.log2 < 9007199254740992 := by
      rw [Nat.div_lt_iff_lt_mul (Nat.two_pow_pos _)]
      omega
    have bounds := roundHalfEven_bounds (n <<< 1074) (1 <<< (n.log2 + 1022))
    rw [kept] at bounds
    simp only [shift]
    exact pack_finite _ (by omega) (by omega) (by omega)

end Binary64

namespace Json

/-- No object holds a key twice, at any depth. -/
inductive KeysDistinct : Json → Prop where
  | null : KeysDistinct null
  | bool (b : Bool) : KeysDistinct (bool b)
  | number (n : Number) : KeysDistinct (number n)
  | string (s : String) : KeysDistinct (string s)
  | array {items : List Json} (each : ∀ item ∈ items, KeysDistinct item) :
    KeysDistinct (array items)
  | object {entries : List (String × Json)} (distinct : Table.Distinct entries)
    (each : ∀ entry ∈ entries, KeysDistinct entry.2) : KeysDistinct (object entries)

theorem Number.same_self (n : Number) : n.same n = true := by
  cases n with
  | integer value => exact decide_eq_true rfl
  | float x => simp [Number.same, Binary64.Finite.same]

theorem sameItems_self {items : List Json} (h : ∀ item ∈ items, item.same item = true) :
    sameItems items items = true := by
  induction items with
  | nil => rfl
  | cons item items ih =>
    rw [sameItems, h item List.mem_cons_self, Bool.true_and]
    apply ih
    intro other later
    exact h other (List.mem_cons_of_mem _ later)

theorem sameEntries_of_get? {entries : List (String × Json)} {whole : Table Json}
    (h : ∀ entry ∈ entries, entry.2.same entry.2 = true)
    (found : ∀ entry ∈ entries, whole.get? entry.1 = some entry.2) :
    sameEntries entries whole = true := by
  induction entries with
  | nil => rfl
  | cons entry entries ih =>
    obtain ⟨key, json⟩ := entry
    have rest : sameEntries entries whole = true := by
      apply ih
      · intro other later
        exact h other (List.mem_cons_of_mem _ later)
      · intro other later
        exact found other (List.mem_cons_of_mem _ later)
    simp only [sameEntries, found (key, json) List.mem_cons_self, h (key, json) List.mem_cons_self,
      rest, Bool.and_self]

/-- A document with distinct keys is the same as itself. -/
theorem KeysDistinct.same_self {json : Json} (h : json.KeysDistinct) : json.same json = true := by
  induction h with
  | null => rfl
  | bool b => exact beq_self_eq_true b
  | number n => exact n.same_self
  | string s => exact beq_self_eq_true s
  | array _ ih => exact sameItems_self ih
  | object distinct _ ih =>
    rw [same, Bool.and_eq_true]
    exact ⟨beq_self_eq_true _, sameEntries_of_get? ih fun _ member => distinct.get?_of_mem member⟩

end Json

/-! ## Plain values -/

namespace Value

/-- A value made of scalars, lists and mappings, with finite numbers and distinct keys. -/
inductive Plain : Value → Prop where
  | bool (b : Bool) : Plain (bool b)
  | integer (i : Int64) : Plain (integer i)
  | number (x : Binary64.Finite) : Plain (number (.finite x))
  | string (s : String) : Plain (string s)
  | list {items : List Value} (each : ∀ item ∈ items, Plain item) : Plain (list items)
  | mapping {entries : List (String × Value)} (distinct : Table.Distinct entries)
    (each : ∀ entry ∈ entries, Plain entry.2) : Plain (mapping entries)

/-! ## What documents are read as -/

theorem itemsOfJson_eq (items : List Json) :
    itemsOfJson items = (items.filter (!·.isNull)).map ofJson := by
  induction items with
  | nil => rfl
  | cons item items ih =>
    rw [itemsOfJson]
    cases null : item.isNull <;> simp [null, ih]

theorem mappingOfJson_eq (entries : List (String × Json)) :
    mappingOfJson entries =
      (entries.filter (!·.2.isNull)).map fun entry => (entry.1, ofJson entry.2) := by
  induction entries with
  | nil => rfl
  | cons entry entries ih =>
    obtain ⟨key, json⟩ := entry
    rw [mappingOfJson]
    cases null : json.isNull <;> simp [null, ih]

/-- A number of a document is read as an integer or as a finite number. -/
theorem ofNumber_cases (n : Json.Number) :
    (∃ i, ofNumber n = .integer i) ∨ ∃ x, ofNumber n = .number (.finite x) := by
  cases n with
  | integer value lower upper =>
    rw [ofNumber]
    split
    · exact .inl ⟨_, rfl⟩
    · next large =>
      have small : value.natAbs < 18446744073709551616 := by omega
      obtain ⟨x, same⟩ := Binary64.ofInt_finite small
      rw [same]
      exact .inr ⟨x, rfl⟩
  | float x => exact .inr ⟨x, rfl⟩

theorem plain_ofNumber (n : Json.Number) : (ofNumber n).Plain := by
  rcases ofNumber_cases n with ⟨i, same⟩ | ⟨x, same⟩
  · rw [same]
    exact .integer i
  · rw [same]
    exact .number x

/-- Leaving out nulls leaves the other keys distinct. -/
theorem distinct_mappingOfJson {entries : List (String × Json)} (h : Table.Distinct entries) :
    Table.Distinct (mappingOfJson entries) := by
  rw [mappingOfJson_eq, Table.Distinct, Table.keys, List.map_map]
  exact h.sublist (List.filter_sublist.map _)

/-- What a document with distinct keys is read as is plain. -/
theorem plain_ofJson {json : Json} (h : json.KeysDistinct) : (ofJson json).Plain := by
  induction h with
  | null => exact .mapping List.nodup_nil (List.forall_mem_nil _)
  | bool b => exact .bool b
  | number n => exact plain_ofNumber n
  | string s => exact .string s
  | array _ ih =>
    refine .list fun item member => ?_
    rw [itemsOfJson_eq] at member
    obtain ⟨json, kept, rfl⟩ := List.mem_map.1 member
    exact ih json (List.mem_filter.1 kept).1
  | object distinct _ ih =>
    refine .mapping (distinct_mappingOfJson distinct) fun entry member => ?_
    rw [mappingOfJson_eq] at member
    obtain ⟨entry, kept, rfl⟩ := List.mem_map.1 member
    exact ih entry (List.mem_filter.1 kept).1

theorem itemsToJson_eq (schema : Schema) (items : List Value) :
    itemsToJson schema items = items.map (·.toJson schema) := by
  induction items with
  | nil => rfl
  | cons item items ih => rw [itemsToJson, ih, List.map_cons]

theorem entriesToJson_eq (schema : Schema) (entries : List (String × Value)) :
    entriesToJson schema entries =
      entries.map fun entry => (entry.1, entry.2.toJson schema) := by
  induction entries with
  | nil => rfl
  | cons entry entries ih => rw [entriesToJson, ih, List.map_cons]

theorem ofJson_ofInt64 (i : Int64) : ofJson (.ofInt64 i) = integer i := by
  have small : i.toInt < 9223372036854775808 := i.toInt_lt
  simp only [Json.ofInt64, ofJson, ofNumber, if_pos small, Int64.ofInt_toInt]

/-- The items of a list, written and read: each for itself if none of them is written as null. -/
theorem itemsOfJson_toJson {schema : Schema} {items : List Value}
    (present : ∀ item ∈ items, (item.toJson schema).isNull = false) :
    itemsOfJson (itemsToJson schema items) = items.map fun item => ofJson (item.toJson schema) := by
  rw [itemsOfJson_eq, itemsToJson_eq, List.filter_eq_self.2, List.map_map]
  · rfl
  · intro json member
    obtain ⟨item, inside, rfl⟩ := List.mem_map.1 member
    simp [present item inside]

theorem mappingOfJson_toJson {schema : Schema} {entries : List (String × Value)}
    (present : ∀ entry ∈ entries, (entry.2.toJson schema).isNull = false) :
    mappingOfJson (entriesToJson schema entries) =
      entries.map fun entry => (entry.1, ofJson (entry.2.toJson schema)) := by
  rw [mappingOfJson_eq, entriesToJson_eq, List.filter_eq_self.2, List.map_map]
  · rfl
  · intro json member
    obtain ⟨entry, inside, rfl⟩ := List.mem_map.1 member
    simp [present entry inside]

/-- A value that is read back from the document that it is written as. -/
structure Restored (schema : Schema) (value : Value) : Prop where
  present : (value.toJson schema).isNull = false
  distinct : (value.toJson schema).KeysDistinct
  back : ofJson (value.toJson schema) = value

/-- Plain values are read back, in whatever schema they are written. -/
theorem Plain.restored (schema : Schema) {value : Value} (h : value.Plain) :
    value.Restored schema := by
  induction h with
  | bool b => exact ⟨rfl, .bool b, rfl⟩
  | integer i => exact ⟨rfl, .number _, ofJson_ofInt64 i⟩
  | number x => exact ⟨rfl, .number _, rfl⟩
  | string s => exact ⟨rfl, .string s, rfl⟩
  | @list items _ ih =>
    refine ⟨rfl, ?_, ?_⟩
    · rw [toJson, itemsToJson_eq]
      apply Json.KeysDistinct.array
      intro json member
      obtain ⟨item, inside, rfl⟩ := List.mem_map.1 member
      exact (ih item inside).distinct
    · rw [toJson, ofJson, itemsOfJson_toJson fun item member => (ih item member).present]
      rw [List.map_congr_left fun item member => (ih item member).back, List.map_id']
  | @mapping entries distinct _ ih =>
    refine ⟨rfl, ?_, ?_⟩
    · rw [toJson, entriesToJson_eq]
      refine .object ?_ fun json member => ?_
      · rw [Table.Distinct, Table.keys, List.map_map]
        exact distinct
      · obtain ⟨entry, inside, rfl⟩ := List.mem_map.1 member
        exact (ih entry inside).distinct
    · have same : ∀ entry ∈ entries, (entry.1, ofJson (entry.2.toJson schema)) = entry := by
        intro entry member
        exact Prod.ext rfl (ih entry member).back
      rw [toJson, ofJson, mappingOfJson_toJson fun entry member => (ih entry member).present,
        List.map_congr_left same, List.map_id']

end Value

end Dossier
