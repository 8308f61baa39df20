import Dossier.Date

/-!
# Timestamps

A timestamp is a point in UTC, to the millisecond. The second of a minute may be
60, as a leap second is; timestamps are ordered by date and time of day, so a
leap second comes after second 59 and before the next minute. Counted in
milliseconds since 1970 it falls together with the second after it, which is
the one that `ofMillis?` gives back.
-/

namespace Dossier

structure Timestamp where
  date : Date
  hour : Nat
  minute : Nat
  second : Nat
  milli : Nat
  hour_lt : hour < 24
  minute_lt : minute < 60
  second_le : second ≤ 60
  milli_lt : milli < 1000
  /-- The years that a timestamp can lie in. -/
  year_bounds : -262143 ≤ date.year ∧ date.year ≤ 262142
  deriving DecidableEq, Repr

namespace Timestamp

def of? (date : Date) (hour minute second milli : Nat) : Option Timestamp :=
  if h : hour < 24 ∧ minute < 60 ∧ second ≤ 60 ∧ milli < 1000 ∧
      (-262143 ≤ date.year ∧ date.year ≤ 262142) then
    some ⟨date, hour, minute, second, milli, h.1, h.2.1, h.2.2.1, h.2.2.2.1, h.2.2.2.2⟩
  else none

/-- The timestamp of a date and time of day in whole seconds, none of them a leap second. -/
def ofParts? (year : Int) (month day hour minute second : Nat) : Option Timestamp := do
  let date ← Date.of? year month day
  if second < 60 then of? date hour minute second 0 else none

/-- 1970-01-01T00:00:00Z. -/
def epoch : Timestamp where
  date := ⟨1970, 1, 1, by decide, by decide, by decide, by decide⟩
  hour := 0
  minute := 0
  second := 0
  milli := 0
  hour_lt := by decide
  minute_lt := by decide
  second_le := by decide
  milli_lt := by decide
  year_bounds := by decide

/-- Milliseconds since the epoch. -/
def millis (t : Timestamp) : Int :=
  (((t.date.dayNumber * 24 + t.hour) * 60 + t.minute) * 60 + t.second) * 1000 + t.milli

/-- The timestamp of a count of milliseconds since 1970, if its year can be represented. -/
def ofMillis? (millis : Int) : Option Timestamp :=
  let inDay := (millis % 86400000).toNat
  of? (Date.ofDayNumber (millis / 86400000)) (inDay / 3600000) (inDay / 60000 % 60)
    (inDay / 1000 % 60) (inDay % 1000)

/-- The timestamp so many minutes before this one, at the same second of the minute. -/
def minutesBefore? (t : Timestamp) (minutes : Int) : Option Timestamp :=
  let minute := t.date.dayNumber * 1440 + t.hour * 60 + t.minute - minutes
  let inDay := (minute % 1440).toNat
  of? (Date.ofDayNumber (minute / 1440)) (inDay / 60) (inDay % 60) t.second t.milli

/-- Timestamps are ordered by date and time of day. -/
instance : Ord Timestamp where
  compare a b :=
    (compare a.date.year b.date.year).then <|
    (compare a.date.month b.date.month).then <|
    (compare a.date.day b.date.day).then <|
    (compare a.hour b.hour).then <|
    (compare a.minute b.minute).then <|
    (compare a.second b.second).then (compare a.milli b.milli)

instance : LT Timestamp := ltOfOrd

end Timestamp

/-- A source of the current time, by the number of the reading counted from 1. -/
structure Clock where
  reading : Nat → Timestamp

namespace Clock

/-- A clock that stands still. -/
def fixed (t : Timestamp) : Clock := ⟨fun _ => t⟩

end Clock

end Dossier
