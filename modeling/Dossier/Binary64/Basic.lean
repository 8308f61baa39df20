/-!
# Binary64 numbers

Double-precision numbers as data: a number is not-a-number, an infinity, or a
sign and a whole count of units of 2^-1074, the least positive number. The
count has at most 53 significant bits, so each finite number has one
representation. Every operation computes an exact fraction first and rounds it
once, to the nearest number and to the even one of two.
-/

namespace Dossier

namespace Binary64

/-- A finite number: `mantissa * 2 ^ shift` units of 2^-1074, with a sign. -/
structure Finite where
  negative : Bool
  mantissa : Nat
  shift : Nat
  /-- The mantissa is below 2^53. -/
  mantissa_lt : mantissa < 9007199254740992
  shift_le : shift ≤ 2045
  /-- Beyond the least exponent it is at least 2^52. -/
  normal : shift = 0 ∨ 4503599627370496 ≤ mantissa
  deriving DecidableEq, Repr

namespace Finite

/-- The magnitude in units of 2^-1074. -/
def units (x : Finite) : Nat := x.mantissa <<< x.shift

def zero (negative : Bool) : Finite :=
  ⟨negative, 0, 0, by decide, by decide, .inl rfl⟩

def isZero (x : Finite) : Bool := x.mantissa = 0

def neg (x : Finite) : Finite := { x with negative := !x.negative }

/-- Numerical equality: the two zeros are equal. -/
def same (x y : Finite) : Bool :=
  decide (x = y) || (x.isZero && y.isZero)

end Finite

end Binary64

inductive Binary64 where
  | nan
  | infinite (negative : Bool)
  | finite (x : Binary64.Finite)
  deriving DecidableEq, Repr

namespace Binary64

/-- `num / den` rounded to a whole number, a half to the even neighbour. -/
def roundHalfEven (num den : Nat) : Nat :=
  let below := num / den
  let rest := 2 * (num % den)
  if rest < den ∨ (rest = den ∧ below % 2 = 0) then below else below + 1

/-- The number with a mantissa of at most 2^53, where 2^53 itself stands for the next
power of two. Beyond the greatest number lies infinity. -/
def pack (negative : Bool) (mantissa shift : Nat) : Binary64 :=
  if h : mantissa < 9007199254740992 ∧ shift ≤ 2045 ∧
      (shift = 0 ∨ 4503599627370496 ≤ mantissa) then
    .finite ⟨negative, mantissa, shift, h.1, h.2.1, h.2.2⟩
  else if h : mantissa = 9007199254740992 ∧ shift + 1 ≤ 2045 then
    .finite ⟨negative, 4503599627370496, shift + 1, by decide, h.2, .inr (by decide)⟩
  else .infinite negative

/-- The number nearest to `num / den` units of 2^-1074. -/
def ofUnits (negative : Bool) (num den : Nat) : Binary64 :=
  let shift := (num / den).log2 - 52
  pack negative (roundHalfEven num (den <<< shift)) shift

/-- The number nearest to `num / den`. -/
def ofFraction (negative : Bool) (num den : Nat) : Binary64 :=
  ofUnits negative (num <<< 1074) den

def ofNat (n : Nat) : Binary64 := ofFraction false n 1

def ofInt (i : Int) : Binary64 := ofFraction (i < 0) i.natAbs 1

/-- The number nearest to `digits * 10 ^ exponent`. A value of too many or too few digits
is not computed: beyond 10^310 all is infinite, below 10^-330 all is zero. -/
def ofDecimal (negative : Bool) (digits : Nat) (exponent : Int) : Binary64 :=
  let magnitude := (Nat.toDigits 10 digits).length + exponent
  if digits = 0 ∨ magnitude < -330 then .finite (.zero negative)
  else if 310 < magnitude then .infinite negative
  else if 0 ≤ exponent then ofFraction negative (digits * Nat.pow 10 exponent.toNat) 1
  else ofFraction negative digits (Nat.pow 10 (-exponent).toNat)

def neg : Binary64 → Binary64
  | nan => nan
  | infinite negative => infinite !negative
  | finite x => finite x.neg

/-- The product of two finite numbers. -/
def mul (x y : Finite) : Binary64 :=
  ofUnits (x.negative != y.negative) (x.units * y.units) (1 <<< 1074)

/-- The quotient of a finite number and one that is not zero. -/
def div (x y : Finite) : Binary64 :=
  ofUnits (x.negative != y.negative) (x.units <<< 1074) y.units

def toFinite? : Binary64 → Option Finite
  | finite x => some x
  | _ => none

end Binary64

end Dossier
