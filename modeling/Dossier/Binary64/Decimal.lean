import Dossier.Binary64.Basic

/-!
# Binary64 numbers as decimal text

A finite number is written with the fewest digits that read back as it, and of
those texts with the one nearest to it. The digits are chosen by exact
arithmetic on the interval of reals that round to the number; how they are laid
out is one function, `Decimal.chars`. The reader takes any decimal text and
rounds it once.
-/

namespace Dossier.Binary64

/-- The number `digits * 10 ^ exponent`. -/
structure Decimal where
  digits : Nat
  exponent : Int
  deriving DecidableEq, Repr

namespace Decimal

/-- The same number without trailing zeros in its digits. -/
def strip (d : Decimal) : Decimal :=
  go (Nat.toDigits 10 d.digits).length d
where
  go : Nat → Decimal → Decimal
    | 0, d => d
    | fuel + 1, d =>
      if d.digits ≠ 0 ∧ d.digits % 10 = 0 then go fuel ⟨d.digits / 10, d.exponent + 1⟩ else d

end Decimal

namespace Finite

/-! The interval of a number is kept in quarter units, so that its ends are whole. -/

def quarters (x : Finite) : Nat := 4 * x.units

/-- Where the interval of reals that round to the number begins. Below a power of two the
next number is half as far away. -/
def lowQuarters (x : Finite) : Nat :=
  (4 * x.mantissa - if x.mantissa = 4503599627370496 ∧ x.shift ≠ 0 then 1 else 2) <<< x.shift

/-- Where the interval of reals that round to the number ends. -/
def highQuarters (x : Finite) : Nat := (4 * x.mantissa + 2) <<< x.shift

/-- Whether `num / den` quarter units round to the number. The ends do if the mantissa is even. -/
def holds (x : Finite) (num den : Nat) : Bool :=
  if x.mantissa % 2 = 0 then x.lowQuarters * den ≤ num && num ≤ x.highQuarters * den
  else x.lowQuarters * den < num && num < x.highQuarters * den

/-- The least `e` with the number below `10 ^ e`. -/
def magnitude (x : Finite) : Int :=
  (Nat.toDigits 10 (x.quarters * Nat.pow 10 324 >>> 1076)).length - 324

/-- The nearest decimal of the grid `10 ^ exponent` that reads back as the number, if there
is one. Of two equally near the even one is taken. -/
def onGrid? (x : Finite) (exponent : Int) : Option Decimal :=
  let scale := Nat.pow 10 (-exponent).toNat
  let unit := Nat.pow 10 exponent.toNat <<< 1076
  let scaled := x.quarters * scale
  let below := scaled / unit
  let rest := scaled % unit
  let lower := x.holds (below * unit) scale
  let upper := x.holds ((below + 1) * unit) scale
  let preferLower := 2 * rest < unit || (2 * rest == unit && below % 2 == 0)
  if lower && (preferLower || !upper) then some ⟨below, exponent⟩
  else if upper then some ⟨below + 1, exponent⟩
  else none

/-- The decimal of fewest digits that reads back as the number. Seventeen always do. -/
def shortest (x : Finite) : Decimal :=
  ((List.range' 1 17).findSome? fun (count : Nat) => x.onGrid? (x.magnitude - count)).getD ⟨0, 0⟩
    |>.strip

end Finite

/-! ## Layout -/

namespace Decimal

/-- Numbers from 10^-5 to below 10^16 are written with a decimal point and at least one digit
on either side of it; all others as one digit, a fraction if there is one, and an exponent
with a sign. -/
def chars (d : Decimal) : List Char :=
  let digits := Nat.toDigits 10 d.digits
  let exponent := digits.length + d.exponent - 1
  if exponent < -5 ∨ 15 < exponent then
    let fraction := if digits.tail = [] then [] else '.' :: digits.tail
    digits.take 1 ++ fraction ++ 'e' :: (if exponent < 0 then '-' else '+') ::
      Nat.toDigits 10 exponent.natAbs
  else if 0 ≤ d.exponent then
    digits ++ List.replicate d.exponent.toNat '0' ++ ['.', '0']
  else if 0 ≤ exponent then
    digits.take (exponent + 1).toNat ++ '.' :: digits.drop (exponent + 1).toNat
  else
    '0' :: '.' :: (List.replicate (-exponent - 1).toNat '0' ++ digits)

end Decimal

def Finite.chars (x : Finite) : List Char :=
  let magnitude := if x.isZero then ['0', '.', '0'] else x.shortest.chars
  if x.negative then '-' :: magnitude else magnitude

/-- The text of a number that stands on its own. -/
def text : Binary64 → String
  | nan => "NaN"
  | infinite negative => if negative then "-inf" else "inf"
  | finite x => String.ofList x.chars

/-! ## Reading -/

/-- The value of an exponent: `e` or `E`, an optional sign, at least one digit, nothing else. -/
def exponentOf? : List Char → Option Int
  | [] => some 0
  | mark :: cs =>
    if mark = 'e' ∨ mark = 'E' then
      let (negative, digits) := match cs with
        | '-' :: digits => (true, digits)
        | '+' :: digits => (false, digits)
        | digits => (false, digits)
      if digits ≠ [] ∧ digits.all Char.isDigit then
        let value : Int := Nat.ofDigitChars 10 digits 0
        some (if negative then -value else value)
      else none
    else none

/-- The number of an unsigned decimal text: digits with a point among or beside them, and
an optional exponent. -/
def ofUnsigned? (negative : Bool) (cs : List Char) : Option Binary64 :=
  let whole := cs.takeWhile Char.isDigit
  let (fraction, rest) := match cs.dropWhile Char.isDigit with
    | '.' :: after => (after.takeWhile Char.isDigit, after.dropWhile Char.isDigit)
    | rest => ([], rest)
  if whole = [] ∧ fraction = [] then none
  else (exponentOf? rest).map fun exponent =>
    ofDecimal negative (Nat.ofDigitChars 10 (whole ++ fraction) 0) (exponent - fraction.length)

/-- Reads an optional sign and a decimal text, `inf`, `infinity` or `nan`, in any case. -/
def ofChars? (cs : List Char) : Option Binary64 :=
  let (negative, rest) := match cs with
    | '-' :: rest => (true, rest)
    | '+' :: rest => (false, rest)
    | rest => (false, rest)
  let word := String.ofList (rest.map Char.toLower)
  if word = "inf" ∨ word = "infinity" then some (.infinite negative)
  else if word = "nan" then some .nan
  else ofUnsigned? negative rest

end Dossier.Binary64
