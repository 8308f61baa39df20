import Dossier.Binary64.Decimal
import Dossier.Entity.Basic

/-!
# Coercion of leaves

How a supplied value becomes one of a kind that holds no entities. Each kind
takes its own values as they are, so coercing a second time changes nothing;
most take a text as well that spells such a value.
-/

namespace Dossier

/-- The integer of a text: an optional sign and decimal digits, within 64 bits. -/
def integerOfText? (s : String) : Option Int64 :=
  let (negative, digits) := match Text.trim s.toList with
    | '-' :: digits => (true, digits)
    | '+' :: digits => (false, digits)
    | digits => (false, digits)
  if digits ≠ [] ∧ digits.all Char.isDigit then
    let magnitude : Int := Nat.ofDigitChars 10 digits 0
    let value := if negative then -magnitude else magnitude
    if -9223372036854775808 ≤ value ∧ value < 9223372036854775808 then
      some (Int64.ofInt value)
    else none
  else none

/-- The number of a decimal text. -/
def numberOfText? (s : String) : Option Binary64 := Binary64.ofChars? (Text.trim s.toList)

def boolOfText? (s : String) : Option Bool :=
  if s = "true" ∨ s = "1" then some true
  else if s = "false" ∨ s = "0" then some false
  else none

namespace LeafKind

def coerceBoolean : Value → Except Reason Value
  | .bool b => .ok (.bool b)
  | .string s => match boolOfText? s with
    | some b => .ok (.bool b)
    | none => .error .notABoolean
  | _ => .error .notABoolean

def coerceInteger : Value → Except Reason Value
  | .integer i => .ok (.integer i)
  | .string s => match integerOfText? s with
    | some i => .ok (.integer i)
    | none => .error .notAnInteger
  | _ => .error .notAnInteger

def coerceNumber : Value → Except Reason Value
  | .number x => .ok (.number x)
  | .integer i => .ok (.number (.ofInt i.toInt))
  | .string s => match numberOfText? s with
    | some x => .ok (.number x)
    | none => .error .notANumber
  | _ => .error .notANumber

def coerceTimestamp : Value → Except Reason Value
  | .timestamp t => .ok (.timestamp t)
  | .string s => match Timestamp.parse? s with
    | some t => .ok (.timestamp t)
    | none => .error .notATimestamp
  | _ => .error .notATimestamp

def coerceIdentifier (allowed : List String) (raw : Value) : Except Reason Value :=
  match raw.string?.bind Identifier.parse? with
  | some id =>
    if allowed ≠ [] ∧ id.typeName ∉ allowed then .error (.notReferencing allowed)
    else .ok (.string id.text)
  | none => .error .notAnIdentifier

/-- The value of the kind that a supplied value stands for. -/
def coerce : LeafKind → Value → Except Reason Value
  | string, raw => match raw with
    | .string s => .ok (.string s)
    | _ => .error .notAString
  | boolean, raw => coerceBoolean raw
  | integer, raw => coerceInteger raw
  | float, raw => coerceNumber raw
  | timestamp, raw => coerceTimestamp raw
  | identifier allowed, raw => coerceIdentifier allowed raw
  | dictionary, raw => match raw with
    | .mapping entries => .ok (.mapping entries)
    | _ => .error .notAMapping

end LeafKind

end Dossier
