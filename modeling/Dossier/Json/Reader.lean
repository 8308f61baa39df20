import Dossier.Json.Basic
import Dossier.Text.Digits
import Dossier.Text.Reader

/-!
# Reading JSON

The reader takes the texts of the JSON grammar and no others, up to 127 nested
arrays and objects. An integer that fits 64 bits stays an integer; every other
number is rounded to a double-precision one, and a number too large for that is
refused. A key that is repeated keeps its first place and takes its last value.
-/

namespace Dossier.Json

open Text (Reader)

/-- A number as it is written. -/
structure Literal where
  negative : Bool
  whole : List Char
  fraction : Option (List Char)
  exponent : Option Int

namespace Literal

/-- The digits of a whole number, without leading zeros. -/
def wholeDigits : Reader (List Char) := do
  let digits ← Reader.allDigits
  if digits.head? = some '0' ∧ digits.length ≠ 1 then failure
  return digits

def fractionDigits : Reader (Option (List Char)) := do
  match ← Reader.optional ['.'] with
  | some _ => return some (← Reader.allDigits)
  | none => return none

def exponentPart : Reader (Option Int) := do
  match ← Reader.optional ['e', 'E'] with
  | some _ =>
    let sign ← Reader.optional ['-', '+']
    let value : Int := Nat.ofDigitChars 10 (← Reader.allDigits) 0
    return some (if sign = some '-' then -value else value)
  | none => return none

def read : Reader Literal := do
  let sign ← Reader.optional ['-']
  let whole ← wholeDigits
  let fraction ← fractionDigits
  let exponent ← exponentPart
  return { negative := sign.isSome, whole, fraction, exponent }

/-- Adds decimal digits to a significand while it fits 64 bits. Gives the significand and
the number of digits left over. -/
def gather (significand : Nat) : List Char → Nat × Nat
  | [] => (significand, 0)
  | c :: cs =>
    let next := Nat.ofDigitChars 10 [c] significand
    if next < 18446744073709551616 then gather next cs else (significand, cs.length + 1)

/-- A power of ten, up to 10^308. -/
def powerOfTen? (exponent : Nat) : Option Binary64.Finite :=
  (Binary64.ofDecimal false 1 exponent).toFinite?

/-- The significand times a power of ten. Both are rounded before they are multiplied or
divided; a power below 10^-308 is divided out in two steps. Overflow is a failure. -/
def scale? (significand : Nat) (exponent : Int) : Option Binary64.Finite := do
  let x ← (Binary64.ofNat significand).toFinite?
  if significand = 0 ∨ exponent < -616 then return .zero false
  else if 0 ≤ exponent then (Binary64.mul x (← powerOfTen? exponent.toNat)).toFinite?
  else if -308 ≤ exponent then (Binary64.div x (← powerOfTen? (-exponent).toNat)).toFinite?
  else
    let small ← (Binary64.div x (← powerOfTen? 308)).toFinite?
    (Binary64.div small (← powerOfTen? (-exponent - 308).toNat)).toFinite?

/-- The double-precision number of a literal. Digits beyond those that fit 64 bits count for
the exponent before the decimal point, and not at all after it. -/
def float? (literal : Literal) : Option Binary64.Finite := do
  let fraction := literal.fraction.getD []
  let (significand, before) := gather 0 literal.whole
  let (significand, ignored) := gather significand fraction
  let exponent := before + (ignored - fraction.length) + literal.exponent.getD 0
  let x ← scale? significand exponent
  return if literal.negative then x.neg else x

/-- The number of a literal: an integer if it is written as one and fits 64 bits. Minus zero
is a float, since integers have no sign of zero. -/
def number? (literal : Literal) : Option Number :=
  let value := Nat.ofDigitChars 10 literal.whole 0
  if literal.fraction = none ∧ literal.exponent = none then
    if literal.negative then
      if h : 0 < value ∧ value ≤ 9223372036854775808 then
        some (.integer (-value) (by omega) (by omega))
      else .float <$> literal.float?
    else if h : value < 18446744073709551616 then some (.integer value (by omega) (by omega))
    else .float <$> literal.float?
  else .float <$> literal.float?

end Literal

def readNumber : Reader Number := do
  (← Literal.read).number?

/-! ## Strings -/

/-- The text up to the quote that closes a string, escapes as they are written, and the
rest after the quote. -/
def stringBody : List Char → Option (List Char × List Char)
  | [] => none
  | '"' :: rest => some ([], rest)
  | '\\' :: c :: rest => do
    let (body, rest) ← stringBody rest
    return ('\\' :: c :: body, rest)
  | c :: rest => do
    let (body, rest) ← stringBody rest
    return (c :: body, rest)

/-- The character that an escape of one letter stands for. -/
def unescape? : Char → Option Char
  | '"' => some '"'
  | '\\' => some '\\'
  | '/' => some '/'
  | 'b' => some '\x08'
  | 'f' => some '\x0c'
  | 'n' => some '\n'
  | 'r' => some '\r'
  | 't' => some '\t'
  | _ => none

/-- The code points that the body of a string stands for. Escapes of four digits may name
halves of a surrogate pair. -/
def codePoints? : List Char → Option (List Nat)
  | [] => some []
  | '\\' :: 'u' :: a :: b :: c :: d :: rest => do
    let point ← Text.hexValue? [a, b, c, d]
    return point :: (← codePoints? rest)
  | '\\' :: c :: rest => do
    let c ← unescape? c
    return c.toNat :: (← codePoints? rest)
  | c :: rest =>
    if c.toNat < 32 ∨ c = '\\' then none
    else do return c.toNat :: (← codePoints? rest)

def isHighSurrogate (point : Nat) : Bool := 0xD800 ≤ point && point < 0xDC00

def isLowSurrogate (point : Nat) : Bool := 0xDC00 ≤ point && point < 0xE000

/-- The characters of code points in which a pair of surrogates stands for one character.
Half a pair on its own has no character. -/
def joinSurrogates? : List Nat → Option (List Char)
  | [] => some []
  | [point] =>
    if isHighSurrogate point || isLowSurrogate point then none else some [Char.ofNat point]
  | point :: next :: rest =>
    if isHighSurrogate point then
      if isLowSurrogate next then do
        let c := Char.ofNat (0x10000 + (point - 0xD800) * 0x400 + (next - 0xDC00))
        return c :: (← joinSurrogates? rest)
      else none
    else if isLowSurrogate point then none
    else do return Char.ofNat point :: (← joinSurrogates? (next :: rest))

/-- Reads a string from behind its opening quote. -/
def readString : Reader String := fun cs => do
  let (body, rest) ← stringBody cs
  let chars ← joinSurrogates? (← codePoints? body)
  return (String.ofList chars, rest)

/-! ## Documents -/

/-- The blanks that may stand between tokens. -/
def isSpace (c : Char) : Bool := c = ' ' || c = '\n' || c = '\t' || c = '\r'

def skipSpace (cs : List Char) : List Char := cs.dropWhile isSpace

/-- Reads a value that is no container. -/
def readScalar : Reader Json
  | 'n' :: 'u' :: 'l' :: 'l' :: rest => some (.null, rest)
  | 't' :: 'r' :: 'u' :: 'e' :: rest => some (.bool true, rest)
  | 'f' :: 'a' :: 'l' :: 's' :: 'e' :: rest => some (.bool false, rest)
  | '"' :: rest => do
    let (s, rest) ← readString rest
    return (.string s, rest)
  | cs => do
    let (n, rest) ← readNumber cs
    return (.number n, rest)

/-- Reads items with commas between them and a bracket after the last. Each item takes at
least one character, so the length of the text bounds their number. -/
def readSequence {α : Type} (item : Reader α) (close : Char) : (bound : Nat) → Reader (List α)
  | 0, _ => none
  | bound + 1, cs => do
    let (x, rest) ← item cs
    match skipSpace rest with
    | c :: rest =>
      if c = ',' then
        let (xs, rest) ← readSequence item close bound rest
        return (x :: xs, rest)
      else if c = close then return ([x], rest)
      else none
    | [] => none

/-- Reads the items of a container from behind its opening bracket. -/
def readContainer {α : Type} (item : Reader α) (close : Char) : Reader (List α) := fun cs =>
  match skipSpace cs with
  | c :: rest => if c = close then some ([], rest) else readSequence item close cs.length cs
  | [] => none

/-- Reads a key, a colon and a value. -/
def readEntry (value : Reader Json) : Reader (String × Json) := fun cs =>
  match skipSpace cs with
  | '"' :: rest => do
    let (key, rest) ← readString rest
    match skipSpace rest with
    | ':' :: rest =>
      let (json, rest) ← value rest
      return ((key, json), rest)
    | _ => none
  | _ => none

/-- Reads a value in which containers nest at most to a depth. -/
def readValue : (depth : Nat) → Reader Json
  | 0, cs => match skipSpace cs with
    | '[' :: _ => none
    | '{' :: _ => none
    | cs => readScalar cs
  | depth + 1, cs => match skipSpace cs with
    | '[' :: rest => do
      let (items, rest) ← readContainer (readValue depth) ']' rest
      return (.array items, rest)
    | '{' :: rest => do
      let (entries, rest) ← readContainer (readEntry (readValue depth)) '}' rest
      return (.object (Table.ofEntries entries), rest)
    | cs => readScalar cs

/-- How deep arrays and objects may nest. -/
def maxDepth : Nat := 127

/-- The document of a text. -/
def parse? (text : String) : Option Json := do
  let (json, rest) ← readValue maxDepth text.toList
  if skipSpace rest = [] then some json else none

end Dossier.Json
