/-!
# Digits

Numerals of a fixed width and their values. Dates, times and UUIDs are written
with a fixed number of digits, so their text has one length whatever the value;
`ofDigitChars_fixedWidth` says that such a numeral keeps the value modulo the
power of the base.
-/

namespace Dossier.Text

/-- The `width` lowest digits of `n`, the highest first. -/
def fixedWidth (base : Nat) : (width : Nat) → (n : Nat) → List Char
  | 0, _ => []
  | width + 1, n => fixedWidth base width (n / base) ++ [Nat.digitChar (n % base)]

@[simp] theorem length_fixedWidth (base width n : Nat) :
    (fixedWidth base width n).length = width := by
  induction width generalizing n with
  | zero => rfl
  | succ width ih => simp [fixedWidth, ih]

/-- A decimal numeral of fixed width has the value of `n` below the power of ten. -/
theorem ofDigitChars_fixedWidth (width n : Nat) :
    Nat.ofDigitChars 10 (fixedWidth 10 width n) 0 = n % Nat.pow 10 width := by
  induction width generalizing n with
  | zero => simp [fixedWidth, Nat.mod_one]
  | succ width ih =>
    have digit := Nat.toNat_digitChar_sub_48_of_lt_ten (Nat.mod_lt n (by decide : 0 < 10))
    simp only [fixedWidth, Nat.ofDigitChars_append, ih, Nat.ofDigitChars_cons,
      Nat.ofDigitChars_nil]
    rw [show Nat.pow 10 (width + 1) = 10 * Nat.pow 10 width from Nat.mul_comm _ _, Nat.mod_mul]
    simp only [show '0'.toNat = 48 from rfl] at *
    omega

/-- The value of one hexadecimal digit, in either case. -/
def hexDigit? (c : Char) : Option Nat :=
  if '0' ≤ c ∧ c ≤ '9' then some (c.toNat - 48)
  else if 'a' ≤ c ∧ c ≤ 'f' then some (c.toNat - 87)
  else if 'A' ≤ c ∧ c ≤ 'F' then some (c.toNat - 55)
  else none

/-- The value of a hexadecimal numeral. A character that is no digit makes it none. -/
def hexValue? (cs : List Char) : Option Nat :=
  cs.foldlM (fun n c => (16 * n + ·) <$> hexDigit? c) 0

end Dossier.Text
