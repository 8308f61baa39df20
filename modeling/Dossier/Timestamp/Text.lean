import Dossier.FormatError
import Dossier.Text.Digits
import Dossier.Text.Reader
import Dossier.Timestamp.Basic

/-!
# Timestamps as text

A timestamp is written as `YYYY-MM-DDThh:mm:ss.sssZ`. Two forms are read. The
first is RFC 3339, with an offset that is taken off the time. The second has no
zone and is laxer: blanks before each number, fewer digits, and a sign before
the year, which then may have any number of digits. Fractions are cut to whole
milliseconds and never rounded.
-/

namespace Dossier.Timestamp

/-- Four digits; years outside 0..9999 carry a sign. -/
def yearChars (year : Int) : List Char :=
  if 0 ≤ year ∧ year ≤ 9999 then Text.fixedWidth 10 4 year.toNat
  else (if year < 0 then '-' else '+') :: (Nat.toDigits 10 year.natAbs).leftpad 4 '0'

def chars (t : Timestamp) : List Char :=
  yearChars t.date.year ++ '-' :: (Text.fixedWidth 10 2 t.date.month ++ '-' ::
    (Text.fixedWidth 10 2 t.date.day ++ 'T' :: (Text.fixedWidth 10 2 t.hour ++ ':' ::
      (Text.fixedWidth 10 2 t.minute ++ ':' :: (Text.fixedWidth 10 2 t.second ++ '.' ::
        (Text.fixedWidth 10 3 t.milli ++ ['Z']))))))

def text (t : Timestamp) : String := String.ofList t.chars

/-! ## Reading -/

open Text (Reader)

/-- The milliseconds of the digits after a decimal point: the first three, filled up with zeros. -/
def fractionMillis (digits : List Char) : Nat :=
  Nat.ofDigitChars 10 ((digits.take 3).rightpad 3 '0') 0

/-- An optional decimal point and digits. -/
def fraction : Reader Nat := do
  match ← Reader.optional ['.'] with
  | some _ => return fractionMillis (← Reader.allDigits)
  | none => return 0

/-- A zone: `Z`, or hours and minutes after a sign, as minutes east of UTC. -/
def offset : Reader Int := do
  let sign ← Reader.oneOf ['Z', 'z', '+', '-', '\u2212']
  if sign = 'Z' ∨ sign = 'z' then return 0
  let hours ← Reader.number 2 2
  Reader.expect ':'
  let minutes ← Reader.number 2 2
  if hours < 24 ∧ minutes < 60 then
    return (if sign = '+' then 1 else -1) * (hours * 60 + minutes : Nat)
  failure

/-- The RFC 3339 form, with the offset taken off. -/
def rfc3339 : Reader Timestamp := do
  let year ← Reader.number 4 4
  Reader.expect '-'
  let month ← Reader.number 2 2
  Reader.expect '-'
  let day ← Reader.number 2 2
  let _ ← Reader.oneOf ['T', 't', ' ']
  let hour ← Reader.number 2 2
  Reader.expect ':'
  let minute ← Reader.number 2 2
  Reader.expect ':'
  let second ← Reader.number 2 2
  let milli ← fraction
  let minutesEast ← offset
  let date ← Date.of? year month day
  let here ← of? date hour minute second milli
  here.minutesBefore? minutesEast

/-- A year of up to four digits, or of any number of digits after a sign. -/
def laxYear : Reader Int := do
  Reader.blanks
  match ← Reader.optional ['-', '+'] with
  | some sign =>
    let year : Int := Nat.ofDigitChars 10 (← Reader.allDigits) 0
    return if sign = '-' then -year else year
  | none => return (← Reader.number 1 4 : Nat)

/-- A number of one or two digits after optional blanks. -/
def laxNumber : Reader Nat := do
  Reader.blanks
  Reader.number 1 2

/-- The form without a zone, read as UTC. -/
def zoneless : Reader Timestamp := do
  let year ← laxYear
  Reader.expect '-'
  let month ← laxNumber
  Reader.expect '-'
  let day ← laxNumber
  Reader.expect 'T'
  let hour ← laxNumber
  Reader.expect ':'
  let minute ← laxNumber
  Reader.expect ':'
  let second ← laxNumber
  let milli ← fraction
  let date ← Date.of? year month day
  of? date hour minute second milli

def ofChars? (cs : List Char) : Option Timestamp :=
  rfc3339.whole cs <|> zoneless.whole cs

/-- Reads a timestamp in either form. -/
def parse? (s : String) : Option Timestamp := ofChars? s.toList

def parse (s : String) : Except FormatError Timestamp :=
  match parse? s with
  | some t => .ok t
  | none => .error (.timestamp s)

/-- As `ofParts?`; the error gives the parts. -/
def ofParts (year : Int) (month day hour minute second : Nat) : Except FormatError Timestamp :=
  match ofParts? year month day hour minute second with
  | some t => .ok t
  | none => .error (.timestamp s!"{year}-{month}-{day} {hour}:{minute}:{second}")

/-- As `ofMillis?`; the error gives the count. -/
def ofMillis (millis : Int) : Except FormatError Timestamp :=
  match ofMillis? millis with
  | some t => .ok t
  | none => .error (.timestamp (toString millis))

end Dossier.Timestamp
