import Dossier.Proofs.Naming

/-!
# Runs of a sequence of identifiers

A sequence of identifiers is asked for identifiers of any types and started again at any
time. It counts the draws since it was last started (`IdSequence.drawn_after`), so an
identifier is told by how many there were since, and none comes twice in 2^48 draws
(`IdSequence.run_identifiers`).
-/

namespace Dossier

namespace Text

/-- A numeral has the lowest digits alone. -/
theorem fixedWidth_mod (base width n : Nat) :
    fixedWidth base width (n % base ^ width) = fixedWidth base width n := by
  induction width generalizing n with
  | zero => rfl
  | succ width ih =>
    rw [fixedWidth, fixedWidth, Nat.pow_succ, Nat.mul_comm, Nat.mod_mul_right_mod,
      Nat.mod_mul_right_div_self, ih]

theorem fixedWidth_zero (base width : Nat) :
    fixedWidth base width 0 = List.replicate width '0' := by
  induction width with
  | zero => rfl
  | succ width ih =>
    rw [fixedWidth, Nat.zero_div, ih, Nat.zero_mod, List.replicate_succ']
    rfl

/-- A numeral of fixed width is the plain one with zeros before it, if that is not wider. -/
theorem fixedWidth_eq_leftpad {base width n : Nat} (binary : 1 < base) (some : 0 < width)
    (fits : n < base ^ width) :
    fixedWidth base width n = (Nat.toDigits base n).leftpad width '0' := by
  induction width generalizing n with
  | zero => exact absurd some (Nat.lt_irrefl 0)
  | succ width ih =>
    rw [fixedWidth]
    by_cases digit : n < base
    · rw [Nat.div_eq_of_lt digit, Nat.mod_eq_of_lt digit, fixedWidth_zero,
        Nat.toDigits_of_lt_base digit]
      rfl
    · have more : base ≤ n := Nat.le_of_not_lt digit
      -- the digits but the last are a numeral of one digit less
      have higher : n / base < base ^ width := by
        rw [Nat.div_lt_iff_lt_mul (by omega), ← Nat.pow_succ]
        exact fits
      have wide : 0 < width := by
        refine Nat.pos_of_ne_zero fun none => ?_
        subst none
        rw [Nat.zero_add, Nat.pow_one] at fits
        omega
      rw [ih wide higher, Nat.toDigits_of_base_le binary more, List.leftpad, List.leftpad,
        List.length_append, List.append_assoc]
      simp

end Text

namespace Identifier

/-- The number of the UUID of a draw. -/
theorem toNat_sequential (n : Nat) (typeName : String) :
    (sequential n typeName).uuid.toNat = 0x40008000000000000000 + n % 2 ^ 48 := by
  have lowest : n % 2 ^ 48 = n % 0x1000000000000 := rfl
  rw [lowest, sequential, Uuid.toNat, Uuid.ofNat, BitVec.toNat_ofNat]
  omega

/-- The UUIDs of two draws are the same if their numbers are, up to multiples of 2^48. -/
theorem sequential_uuid_eq_iff {m n : Nat} {a b : String} :
    (sequential m a).uuid = (sequential n b).uuid ↔ m % 2 ^ 48 = n % 2 ^ 48 := by
  constructor
  · intro same
    have numbers := congrArg Uuid.toNat same
    rw [toNat_sequential, toNat_sequential] at numbers
    exact Nat.add_left_cancel numbers
  · intro same
    have literal : m % 0x1000000000000 = n % 0x1000000000000 := same
    rw [sequential, sequential, literal]

theorem version_sequential (n : Nat) (typeName : String) :
    (sequential n typeName).uuid.version = 4 := by
  rw [Uuid.version, toNat_sequential, Nat.shiftRight_eq_div_pow]
  omega

theorem variant_sequential (n : Nat) (typeName : String) :
    (sequential n typeName).uuid.variant = 2 := by
  rw [Uuid.variant, toNat_sequential, Nat.shiftRight_eq_div_pow]
  omega

/-- The text of the UUID of a draw ends in the number of the draw. -/
theorem text_sequential {n : Nat} (small : n < 2 ^ 48) (typeName : String) :
    (sequential n typeName).uuid.text =
      "00000000-0000-4000-8000-" ++ String.ofList ((Nat.toDigits 16 n).leftpad 12 '0') := by
  have number := toNat_sequential n typeName
  rw [Nat.mod_eq_of_lt small] at number
  obtain ⟨first, second, third, fourth⟩ :
      (0x40008000000000000000 + n) >>> 96 = 0 ∧ (0x40008000000000000000 + n) >>> 80 = 0 ∧
      (0x40008000000000000000 + n) >>> 64 = 0x4000 ∧
      (0x40008000000000000000 + n) >>> 48 = 0x40008000 := by
    simp only [Nat.shiftRight_eq_div_pow]
    omega
  have last : (0x40008000000000000000 + n) % 16 ^ 12 = n := by omega
  have fits : n < 16 ^ 12 := by omega
  rw [Uuid.text, Uuid.chars, number, first, second, third, fourth, ← Text.fixedWidth_mod 16 12,
    last, Text.fixedWidth_eq_leftpad (by decide) (by decide) fits, ← String.toList_inj]
  simp only [String.toList_append, String.toList_ofList]
  rfl

end Identifier

/-! ## Runs -/

namespace IdSequence

/-- What a sequence is asked for. -/
inductive Call where
  | generate (typeName : String)
  | reset
  deriving DecidableEq

/-- What a call gives, nothing for a reset, and the sequence after it. -/
def perform (ids : IdSequence) : Call → Option Identifier × IdSequence
  | .generate typeName => ((ids.generate typeName).1, (ids.generate typeName).2)
  | .reset => (none, ids.reset)

/-- What the calls give, one after the other. -/
def run : IdSequence → List Call → List (Option Identifier)
  | _, [] => []
  | ids, call :: calls => (ids.perform call).1 :: run (ids.perform call).2 calls

/-- The sequence after the calls. -/
def after (ids : IdSequence) (calls : List Call) : IdSequence :=
  calls.foldl (fun ids call => (ids.perform call).2) ids

/-- How many identifiers the calls have asked for since the last reset. -/
def sinceReset (calls : List Call) : Nat := (calls.reverse.takeWhile (· ≠ .reset)).length

variable {calls : List Call}

theorem after_append (ids : IdSequence) (calls later : List Call) :
    ids.after (calls ++ later) = (ids.after calls).after later := List.foldl_append

theorem run_getElem? (ids : IdSequence) (calls : List Call) (i : Nat) :
    (run ids calls)[i]? = calls[i]?.map fun call => ((ids.after (calls.take i)).perform call).1 := by
  induction calls generalizing ids i with
  | nil => rfl
  | cons call calls ih =>
    cases i with
    | zero => rfl
    | succ i => exact ih _ i

/-- Step: a call counts one draw, or starts the count again. -/
theorem perform_drawn (ids : IdSequence) (call : Call) :
    (ids.perform call).2.drawn = if call = .reset then 0 else ids.drawn + 1 := by
  cases call with
  | generate typeName => rfl
  | reset => rfl

/-- Run: the draws are counted from the last reset. By induction on the calls, the last first. -/
theorem drawn_after (calls : List Call) : (after {} calls).drawn = sinceReset calls := by
  suffices ∀ latest : List Call,
      (after {} latest.reverse).drawn = (latest.takeWhile (· ≠ .reset)).length by
    simpa [sinceReset] using this calls.reverse
  intro latest
  induction latest with
  | nil => rfl
  | cons call latest ih =>
    rw [List.reverse_cons, after_append]
    refine (perform_drawn _ call).trans ?_
    by_cases reset : call = .reset
    · simp [reset]
    · simp [reset, ih]

/-- Run: without a reset each call is a draw. -/
theorem drawn_after_of_kept (ids : IdSequence) (kept : .reset ∉ calls) :
    (ids.after calls).drawn = ids.drawn + calls.length := by
  induction calls generalizing ids with
  | nil => rfl
  | cons call calls ih =>
    obtain ⟨first, later⟩ := not_or.1 (mt List.mem_cons.2 kept)
    have step := perform_drawn ids call
    rw [if_neg (Ne.symm first)] at step
    refine (ih (ids.perform call).2 later).trans ?_
    rw [step, List.length_cons]
    omega

/-- An identifier of a run is that of its number since the last reset. -/
theorem generated_eq {i : Nat} {id : Identifier} (given : (run {} calls)[i]? = some (some id)) :
    ∃ typeName, calls[i]? = some (.generate typeName) ∧
      id = .sequential (sinceReset (calls.take i) + 1) typeName := by
  rw [run_getElem?] at given
  obtain ⟨call, there, gave⟩ := Option.map_eq_some_iff.1 given
  cases call with
  | generate typeName =>
    refine ⟨typeName, there, ?_⟩
    rw [← drawn_after]
    exact (Option.some.inj gave).symm
  | reset => cases gave

/-- **Sequential identifiers over whole runs**, of any draws and resets in any order. An identifier
is drawn for the type asked for, and its UUID is of version 4 and the common variant. Its number
since the last reset, below 2^48, is its last group in hexadecimal. It is read from its text, and is
one of its type, if the type has a name. Two draws have different UUIDs if the calls from one to the
other are fewer than 2^48 and no resets. -/
theorem run_identifiers (calls : List Call) :
    (∀ i typeName, calls[i]? = some (.generate typeName) →
      ∃ id : Identifier, (run {} calls)[i]? = some (some id) ∧ id.typeName = typeName ∧
        (sinceReset (calls.take i) + 1 < 2 ^ 48 →
          id.uuid.text = "00000000-0000-4000-8000-" ++
            String.ofList ((Nat.toDigits 16 (sinceReset (calls.take i) + 1)).leftpad 12 '0')) ∧
        id.uuid.version = 4 ∧ id.uuid.variant = 2 ∧
        (typeName ≠ "" → Identifier.parse id.text = .ok id ∧
          (Validator.identifierOf typeName).check (.string id.text) = .ok ())) ∧
    ∀ i j a b, (run {} calls)[i]? = some (some a) → (run {} calls)[j]? = some (some b) →
      i < j → j - i < 2 ^ 48 → .reset ∉ (calls.take j).drop i → a.uuid ≠ b.uuid := by
  refine ⟨fun i typeName asked => ?_, fun i j a b first second before near kept same => ?_⟩
  · have given : (run {} calls)[i]? =
        some (some (.sequential (sinceReset (calls.take i) + 1) typeName)) := by
      rw [run_getElem?, asked, ← drawn_after]
      rfl
    refine ⟨_, given, rfl, fun small => Identifier.text_sequential small typeName,
      Identifier.version_sequential _ typeName, Identifier.variant_sequential _ typeName,
      fun named => ⟨Identifier.parse_text named, ?_⟩⟩
    exact (Validator.identifierOf_check _ _).2 ⟨_, rfl, named, .inl rfl⟩
  · obtain ⟨firstType, -, rfl⟩ := generated_eq first
    obtain ⟨secondType, there, rfl⟩ := generated_eq second
    have inside : j < calls.length := (List.getElem?_eq_some_iff.1 there).1
    -- the second draw comes after the calls before the first and those from there on
    have parts : calls.take i ++ (calls.take j).drop i = calls.take j := by
      have whole := List.take_append_drop i (calls.take j)
      rwa [List.take_take, Nat.min_eq_left (Nat.le_of_lt before)] at whole
    have counted := drawn_after_of_kept (after {} (calls.take i)) kept
    rw [← after_append, parts, drawn_after, drawn_after, List.length_drop,
      List.length_take] at counted
    rw [Identifier.sequential_uuid_eq_iff] at same
    omega

/-- A note, and objects after a reset. -/
def objectsAfterNote : List Call :=
  [.generate "note", .reset] ++ List.replicate 26 (.generate "object")

/-- The last object is the twenty-sixth since the reset, and another one than the first. -/
theorem lastObject_identified :
    objectsAfterNote[27]? = some (.generate "object") ∧
    sinceReset (objectsAfterNote.take 27) + 1 = 26 ∧
    ∃ first last : Identifier, (run {} objectsAfterNote)[2]? = some (some first) ∧
      (run {} objectsAfterNote)[27]? = some (some last) ∧ last.typeName = "object" ∧
      last.uuid.text = "00000000-0000-4000-8000-00000000001a" ∧
      last.uuid.version = 4 ∧ last.uuid.variant = 2 ∧
      Identifier.parse last.text = .ok last ∧
      (Validator.identifierOf "object").check (.string last.text) = .ok () ∧
      first.uuid ≠ last.uuid := by
  obtain ⟨each, apart⟩ := run_identifiers objectsAfterNote
  obtain ⟨first, here, -⟩ := each 2 "object" rfl
  obtain ⟨last, there, typed, text, version, variant, named⟩ := each 27 "object" rfl
  obtain ⟨parsed, checked⟩ := named (by decide)
  exact ⟨rfl, rfl, first, last, here, there, typed, text (by decide), version, variant, parsed,
    checked, apart 2 27 first last here there (by decide) (by decide) (by decide)⟩

end IdSequence

end Dossier
