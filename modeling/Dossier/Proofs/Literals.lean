import Mathlib.Data.List.TakeWhile
import Mathlib.Tactic.SplitIfs
import Dossier.Json.Reader
import Dossier.Json.Writer
import Dossier.Proofs.Timestamps

/-!
# Literals of numbers

A number is written as a literal of the grammar: a sign, digits, a fraction and an
exponent, of which only the digits have to be there. The reader takes each such
literal apart into what it was put together from (`Literal.Spelling.read_chars`). An
integer is digits with a sign; a floating number has a fraction or an exponent, and
so is never taken for an integer (`Binary64.Finite.spelling`).
-/

namespace Dossier.Json

open Text (Reader)

namespace Literal

/-- Decimal digits, of which there is at least one. -/
def Numeral (digits : List Char) : Prop := digits ≠ [] ∧ ∀ c ∈ digits, c.isDigit = true

theorem numeral_toDigits (n : Nat) : Numeral (Nat.toDigits 10 n) :=
  ⟨Nat.toDigits_ne_nil, fun _ member => Nat.isDigit_of_mem_toDigits (by decide) (by decide) member⟩

theorem numeral_zero : Numeral ['0'] := numeral_toDigits 0

theorem head?_toDigits {n : Nat} (nonzero : n ≠ 0) : (Nat.toDigits 10 n).head? ≠ some '0' := by
  induction n using Nat.strongRecOn with
  | ind n ih =>
    rw [Nat.toDigits_eq_if (by decide)]
    split
    · simpa using nonzero
    · next large =>
      have first := ih (n / 10) (by omega) (by omega)
      obtain ⟨c, cs, digits⟩ :=
        List.exists_cons_of_ne_nil (Nat.toDigits_ne_nil (b := 10) (n := n / 10))
      rw [digits] at first ⊢
      exact first

/-- Only zero itself begins with a zero. -/
theorem leading_toDigits (n : Nat) (zero : (Nat.toDigits 10 n).head? = some '0') : n = 0 := by
  by_contra nonzero
  exact head?_toDigits nonzero zero

/-- A literal as it is put together: without zeros before other digits, and with the digits of
the exponent as they are written. -/
structure Spelling where
  negative : Bool
  whole : List Char
  fraction : Option (List Char)
  /-- Whether it is negative, and its digits. -/
  exponent : Option (Bool × List Char)
  numeral : Numeral whole
  leading : whole.head? = some '0' → whole.length = 1
  decimals : ∀ digits, fraction = some digits → Numeral digits
  power : ∀ e, exponent = some e → Numeral e.2

namespace Spelling

def signChars (negative : Bool) : List Char := if negative then ['-'] else []

def fractionChars : Option (List Char) → List Char
  | none => []
  | some digits => '.' :: digits

def exponentChars : Option (Bool × List Char) → List Char
  | none => []
  | some (negative, digits) => 'e' :: (if negative then '-' else '+') :: digits

def exponentValue (exponent : Bool × List Char) : Int :=
  let value : Int := Nat.ofDigitChars 10 exponent.2 0
  if exponent.1 then -value else value

def chars (s : Spelling) : List Char :=
  signChars s.negative ++ (s.whole ++ (fractionChars s.fraction ++ exponentChars s.exponent))

def literal (s : Spelling) : Literal :=
  ⟨s.negative, s.whole, s.fraction, s.exponent.map exponentValue⟩

/-- Integers have neither a fraction nor an exponent. -/
def Floating (s : Spelling) : Prop := ¬(s.literal.fraction = none ∧ s.literal.exponent = none)

/-! ## Reading -/

theorem head_exponentChars {exponent : Option (Bool × List Char)} :
    ∀ c ∈ (exponentChars exponent).head?, c = 'e' := by
  cases exponent with
  | none => rintro c ⟨⟩
  | some exponent =>
    rintro c ⟨⟩
    rfl

theorem read_exponentChars {exponent : Option (Bool × List Char)}
    (numeral : ∀ e, exponent = some e → Numeral e.2) :
    exponentPart (exponentChars exponent) = some (exponent.map exponentValue, []) := by
  cases exponent with
  | none => rfl
  | some exponent =>
    obtain ⟨negative, digits⟩ := exponent
    obtain ⟨nonempty, each⟩ := numeral _ rfl
    have mark : Reader.optional ['e', 'E'] (exponentChars (some (negative, digits))) =
        some (some 'e', (if negative then '-' else '+') :: digits) := rfl
    have signed : Reader.optional ['-', '+'] ((if negative then '-' else '+') :: digits) =
        some (some (if negative then '-' else '+'), digits) := by
      cases negative <;> rfl
    have taken : Reader.allDigits digits = some (digits, []) := by
      have last : ∀ c ∈ ([] : List Char).head?, c.isDigit = false := by simp
      simpa using Reader.allDigits_append nonempty each last
    rw [exponentPart, Reader.bind_eq_some mark]
    dsimp only
    rw [Reader.bind_eq_some signed, Reader.bind_eq_some taken]
    cases negative <;> rfl

theorem read_fractionChars {fraction : Option (List Char)}
    (numeral : ∀ digits, fraction = some digits → Numeral digits)
    (exponent : Option (Bool × List Char)) :
    fractionDigits (fractionChars fraction ++ exponentChars exponent) =
      some (fraction, exponentChars exponent) := by
  -- behind the fraction comes the exponent or nothing, and neither begins with a point
  have mark := @head_exponentChars exponent
  generalize exponentChars exponent = rest at mark
  cases fraction with
  | none =>
    have none : Reader.optional ['.'] rest = some (none, rest) := by
      cases rest with
      | nil => rfl
      | cons c rest =>
        have other : c ∉ ['.'] := by simp [mark c rfl]
        rw [Reader.optional, if_neg other]
    show fractionDigits rest = _
    rw [fractionDigits, Reader.bind_eq_some none]
    rfl
  | some digits =>
    obtain ⟨nonempty, each⟩ := numeral digits rfl
    have point : Reader.optional ['.'] ('.' :: (digits ++ rest)) =
        some (some '.', digits ++ rest) := rfl
    have stops : ∀ c ∈ rest.head?, c.isDigit = false := by
      intro c head
      rw [mark c head]
      rfl
    show fractionDigits ('.' :: (digits ++ rest)) = _
    rw [fractionDigits, Reader.bind_eq_some point]
    dsimp only
    rw [Reader.bind_eq_some (Reader.allDigits_append nonempty each stops)]
    rfl

/-- A spelling begins with its sign or with a digit. -/
theorem head_chars (s : Spelling) :
    ∃ c more, s.chars = c :: more ∧ (c = '-' ∨ c.isDigit = true) := by
  obtain ⟨nonempty, each⟩ := s.numeral
  unfold chars
  cases s.negative with
  | true => exact ⟨'-', _, rfl, .inl rfl⟩
  | false =>
    obtain ⟨c, more, whole⟩ := List.exists_cons_of_ne_nil nonempty
    rw [whole]
    exact ⟨c, _, rfl, .inr (each c (by simp [whole]))⟩

/-- **A literal is read as it is spelt.** -/
theorem read_chars (s : Spelling) : read s.chars = some (s.literal, []) := by
  obtain ⟨negative, whole, fraction, exponent, ⟨nonempty, each⟩, leading, decimals, power⟩ := s
  unfold chars literal
  dsimp only at *
  have stops : ∀ c ∈ (fractionChars fraction ++ exponentChars exponent).head?,
      c.isDigit = false := by
    cases fraction with
    | none =>
      intro c head
      rw [head_exponentChars c head]
      rfl
    | some digits =>
      rintro c ⟨⟩
      rfl
  -- a digit is no minus, so without a sign none is taken
  have signed : Reader.optional ['-'] (signChars negative ++
      (whole ++ (fractionChars fraction ++ exponentChars exponent))) =
      some (if negative then some '-' else none,
        whole ++ (fractionChars fraction ++ exponentChars exponent)) := by
    cases negative with
    | true => rfl
    | false =>
      obtain ⟨c, more, rfl⟩ := List.exists_cons_of_ne_nil nonempty
      have digit := each c List.mem_cons_self
      have other : c ∉ ['-'] := by
        intro minus
        rw [List.mem_singleton.1 minus] at digit
        cases digit
      show Reader.optional ['-'] (c :: (more ++ _)) = _
      rw [Reader.optional, if_neg other]
      rfl
  have begun : wholeDigits (whole ++ (fractionChars fraction ++ exponentChars exponent)) =
      some (whole, fractionChars fraction ++ exponentChars exponent) := by
    have proper : ¬(whole.head? = some '0' ∧ whole.length ≠ 1) := by
      rintro ⟨zero, long⟩
      exact long (leading zero)
    rw [wholeDigits, Reader.bind_eq_some (Reader.allDigits_append nonempty each stops)]
    dsimp only
    rw [if_neg proper]
    rfl
  rw [read, Reader.bind_eq_some signed, Reader.bind_eq_some begun,
    Reader.bind_eq_some (read_fractionChars decimals exponent),
    Reader.bind_eq_some (read_exponentChars power)]
  cases negative <;> rfl

/-! ## Kinds of spelling -/

/-- The digits of a whole number. -/
def integer (negative : Bool) (n : Nat) : Spelling where
  negative := negative
  whole := Nat.toDigits 10 n
  fraction := none
  exponent := none
  numeral := numeral_toDigits n
  leading zero := by
    rw [leading_toDigits n zero]
    rfl
  decimals := by rintro _ ⟨⟩
  power := by rintro _ ⟨⟩

/-- Digits on both sides of a point. -/
def point (negative : Bool) {whole decimals : List Char} (numeral : Numeral whole)
    (leading : whole.head? = some '0' → whole.length = 1) (behind : Numeral decimals) :
    Spelling where
  negative := negative
  whole := whole
  fraction := some decimals
  exponent := none
  numeral := numeral
  leading := leading
  decimals := by
    rintro _ ⟨⟩
    exact behind
  power := by rintro _ ⟨⟩

/-- One digit, the others behind a point, and an exponent. -/
def scientific (negative : Bool) {digit : Char} {more : List Char}
    (each : ∀ c ∈ digit :: more, c.isDigit = true) (exponent : Int) : Spelling where
  negative := negative
  whole := [digit]
  fraction := if more = [] then none else some more
  exponent := some (decide (exponent < 0), Nat.toDigits 10 exponent.natAbs)
  numeral := ⟨by simp, by simpa using (List.forall_mem_cons.1 each).1⟩
  leading _ := rfl
  decimals := by
    intro decimals given
    split at given
    · cases given
    · next nonempty =>
      cases given
      exact ⟨nonempty, (List.forall_mem_cons.1 each).2⟩
  power := by
    rintro _ ⟨⟩
    exact numeral_toDigits _

/-- A text is spelt, after its sign, as a floating number. -/
def Spells (negative : Bool) (magnitude : List Char) : Prop :=
  ∃ s : Spelling, s.chars = signChars negative ++ magnitude ∧ s.Floating

variable {negative : Bool}

theorem spells_point {whole decimals : List Char} (numeral : Numeral whole)
    (leading : whole.head? = some '0' → whole.length = 1) (behind : Numeral decimals) :
    Spells negative (whole ++ '.' :: decimals) :=
  ⟨point negative numeral leading behind, by simp [chars, point, fractionChars, exponentChars],
    by simp [Floating, literal, point]⟩

theorem spells_scientific {digit : Char} {more : List Char}
    (each : ∀ c ∈ digit :: more, c.isDigit = true) (exponent : Int) :
    Spells negative ([digit] ++ (if more = [] then [] else '.' :: more) ++
      'e' :: (if exponent < 0 then '-' else '+') :: Nat.toDigits 10 exponent.natAbs) := by
  refine ⟨scientific negative each exponent, ?_, by simp [Floating, literal, scientific]⟩
  by_cases alone : more = []
  · simp [chars, scientific, fractionChars, exponentChars, alone]
  · simp [chars, scientific, fractionChars, exponentChars, alone]

end Spelling

end Literal

end Dossier.Json

namespace Dossier.Binary64

open Json Json.Literal Json.Literal.Spelling

/-- Decimals are written with a fraction or an exponent, and with no zero before other digits. -/
theorem Decimal.spells_chars {d : Decimal} (proper : d.digits = 0 → d.exponent = 0)
    (negative : Bool) : Spells negative d.chars := by
  obtain ⟨nonempty, each⟩ := numeral_toDigits d.digits
  -- a leading zero is the only digit
  have first : (Nat.toDigits 10 d.digits).head? = some '0' →
      d.exponent = 0 ∧ (Nat.toDigits 10 d.digits).length = 1 := by
    intro zero
    have none := leading_toDigits d.digits zero
    exact ⟨proper none, by rw [none]; rfl⟩
  have padding : ∀ n, ∀ c ∈ List.replicate n '0', c.isDigit = true := by
    intro n c member
    rw [List.eq_of_mem_replicate member]
    rfl
  unfold chars
  generalize Nat.toDigits 10 d.digits = digits at nonempty each first
  obtain ⟨digit, more, rfl⟩ := List.exists_cons_of_ne_nil nonempty
  dsimp only
  split
  · exact spells_scientific each _
  split
  · -- zeros between the digits and the point
    have numeral : Numeral (digit :: more ++ List.replicate d.exponent.toNat '0') :=
      ⟨by simp, List.forall_mem_append.2 ⟨each, padding _⟩⟩
    refine spells_point numeral ?_ numeral_zero
    intro zero
    obtain ⟨none, single⟩ := first zero
    simpa [none] using single
  next fractional =>
  split
  · -- the point among the digits
    next among =>
    obtain ⟨n, place⟩ : ∃ n, ((digit :: more).length + d.exponent - 1 + 1).toNat = n + 1 :=
      ⟨((digit :: more).length + d.exponent - 1).toNat, by omega⟩
    have inner : n + 1 < (digit :: more).length := by omega
    rw [place]
    refine spells_point ⟨by simp, fun c member => each c (List.mem_of_mem_take member)⟩ ?_
      ⟨?_, fun c member => each c (List.mem_of_mem_drop member)⟩
    · intro zero
      obtain ⟨none, -⟩ := first zero
      omega
    · exact fun none => absurd (List.drop_eq_nil_iff.1 none) (by omega)
  · -- zeros between the point and the digits
    refine spells_point numeral_zero (fun _ => rfl) ?_
    exact ⟨by simp, List.forall_mem_append.2 ⟨padding _, each⟩⟩

/-- Stripping zeros off the digits leaves some digits. -/
theorem Decimal.digits_strip {d : Decimal} (nonzero : d.digits ≠ 0) : d.strip.digits ≠ 0 := by
  unfold strip
  generalize (Nat.toDigits 10 d.digits).length = fuel
  induction fuel generalizing d with
  | zero => exact nonzero
  | succ fuel ih =>
    rw [strip.go]
    split
    · refine ih ?_
      show d.digits / 10 ≠ 0
      omega
    · exact nonzero

namespace Finite

variable {x : Finite}

/-- Zero is not among the decimals that are read back as another number. -/
theorem digits_onGrid? (nonzero : x.mantissa ≠ 0) {exponent : Int} {d : Decimal}
    (found : x.onGrid? exponent = some d) : d.digits ≠ 0 := by
  have positive : 0 < Nat.pow 10 (-exponent).toNat := Nat.pow_pos (by decide)
  unfold onGrid? at found
  generalize Nat.pow 10 (-exponent).toNat = scale at found positive
  generalize Nat.pow 10 exponent.toNat <<< 1076 = unit at found
  have low : 0 < x.lowQuarters := by
    unfold lowQuarters
    rw [Nat.shiftLeft_eq]
    refine Nat.mul_pos ?_ (Nat.two_pow_pos _)
    split <;> omega
  -- zero is not among the fractions that are read back as the number
  have apart : x.holds 0 scale = false := by
    have above := Nat.mul_pos low positive
    unfold holds
    split
    · simp only [Bool.and_eq_false_iff, decide_eq_false_iff_not]
      omega
    · simp only [Bool.and_eq_false_iff, decide_eq_false_iff_not]
      omega
  dsimp only at found
  split at found
  · next lower =>
    cases found
    intro none
    have none : x.quarters * scale / unit = 0 := none
    rw [none, Nat.zero_mul, apart] at lower
    simp at lower
  · split at found
    · cases found
      exact Nat.succ_ne_zero _
    · cases found

theorem proper_shortest (nonzero : x.mantissa ≠ 0) :
    x.shortest.digits = 0 → x.shortest.exponent = 0 := by
  unfold shortest
  cases found : (List.range' 1 17).findSome?
    fun (count : Nat) => x.onGrid? (x.magnitude - count) with
  | none => exact fun _ => rfl
  | some d =>
    obtain ⟨count, -, grid⟩ := List.exists_of_findSome?_eq_some found
    exact fun none => absurd none (Decimal.digits_strip (digits_onGrid? nonzero grid))

/-- **A floating number is spelt as one.** -/
theorem spelling (x : Finite) : ∃ s : Spelling, s.chars = x.chars ∧ s.Floating := by
  have magnitude : Spells x.negative (if x.isZero then ['0', '.', '0'] else x.shortest.chars) := by
    split
    · exact spells_point numeral_zero (fun _ => rfl) numeral_zero
    · next nonzero =>
      exact Decimal.spells_chars (proper_shortest (by simpa [isZero] using nonzero)) x.negative
  obtain ⟨s, text, floating⟩ := magnitude
  refine ⟨s, ?_, floating⟩
  rw [text, chars, signChars]
  cases x.negative <;> rfl

end Finite

end Dossier.Binary64
