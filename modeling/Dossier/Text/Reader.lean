import Dossier.Text.Blank

/-!
# Readers

A reader takes a value from the front of a text and leaves the rest, or fails.
These are the few readers that formats of fixed layout are put together from.
-/

namespace Dossier.Text

abbrev Reader := StateT (List Char) Option

namespace Reader

/-- Takes the character `c`. -/
def expect (c : Char) : Reader Unit
  | d :: rest => if d = c then some ((), rest) else none
  | [] => none

/-- Takes the first character, if it is one of the choices. -/
def oneOf (choices : List Char) : Reader Char
  | c :: rest => if c ∈ choices then some (c, rest) else none
  | [] => none

/-- Takes as many decimal digits as there are, at least `least` and up to `most`. -/
def digits (least most : Nat) : Reader (List Char) := fun cs =>
  let taken := (cs.take most).takeWhile Char.isDigit
  if least ≤ taken.length then some (taken, cs.drop taken.length) else none

/-- Takes all leading decimal digits, of which there is at least one. -/
def allDigits : Reader (List Char) := fun cs =>
  match cs.takeWhile Char.isDigit with
  | [] => none
  | taken => some (taken, cs.dropWhile Char.isDigit)

/-- The number written by between `least` and `most` digits. -/
def number (least most : Nat) : Reader Nat :=
  (Nat.ofDigitChars 10 · 0) <$> digits least most

/-- Passes over blanks. -/
def blanks : Reader Unit := fun cs => some ((), skipBlanks cs)

/-- Takes the first character if it is one of the choices, and nothing otherwise. -/
def optional (choices : List Char) : Reader (Option Char)
  | c :: rest => some (if c ∈ choices then (some c, rest) else (none, c :: rest))
  | [] => some (none, [])

/-- The value of a text that a reader takes to its end. -/
def whole {α : Type} (reader : Reader α) (cs : List Char) : Option α :=
  match reader cs with
  | some (value, []) => some value
  | _ => none

end Reader

end Dossier.Text
