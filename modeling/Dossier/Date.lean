/-!
# Dates

Dates of the proleptic Gregorian calendar, with year 0 before year 1, and their
number: days since 1970-01-01. `dayNumber_ofDayNumber` says that every number
belongs to a date.
-/

namespace Dossier

def isLeapYear (year : Int) : Bool :=
  year % 4 = 0 && (year % 100 ≠ 0 || year % 400 = 0)

/-- The lengths of the twelve months. -/
def monthLengths (year : Int) : List Nat :=
  [31, if isLeapYear year then 29 else 28, 31, 30, 31, 30, 31, 31, 30, 31, 30, 31]

def daysInMonth (year : Int) (month : Nat) : Nat :=
  (monthLengths year)[month - 1]?.getD 0

/-- Days from the first day of year 1 to the first day of `year`. -/
def daysBeforeYear (year : Int) : Int :=
  365 * (year - 1) + (year - 1) / 4 - (year - 1) / 100 + (year - 1) / 400

def daysInYear (year : Int) : Nat :=
  if isLeapYear year then 366 else 365

/-- The days of the first `count` months of a run. -/
def daysOf : (lengths : List Nat) → (count : Nat) → Nat
  | length :: lengths, count + 1 => length + daysOf lengths count
  | _, _ => 0

theorem daysOf_monthLengths (year : Int) :
    daysOf (monthLengths year) (monthLengths year).length = daysInYear year := by
  unfold monthLengths daysInYear
  split <;> rfl

theorem daysBeforeYear_succ (year : Int) :
    daysBeforeYear (year + 1) = daysBeforeYear year + daysInYear year := by
  unfold daysBeforeYear daysInYear isLeapYear
  by_cases h4 : year % 4 = 0 <;> by_cases h100 : year % 100 = 0 <;>
    by_cases h400 : year % 400 = 0 <;> simp [h4, h100, h400] <;> omega

/-! ## Dates -/

/-- A day of the calendar. -/
structure Date where
  year : Int
  month : Nat
  day : Nat
  month_pos : 1 ≤ month
  month_le : month ≤ 12
  day_pos : 1 ≤ day
  day_le : day ≤ daysInMonth year month
  deriving DecidableEq, Repr

namespace Date

def of? (year : Int) (month day : Nat) : Option Date :=
  if h : 1 ≤ month ∧ month ≤ 12 ∧ 1 ≤ day ∧ day ≤ daysInMonth year month then
    some ⟨year, month, day, h.1, h.2.1, h.2.2.1, h.2.2.2⟩
  else none

/-- Days from 0001-01-01 to 1970-01-01. -/
def epochOffset : Int := 719162

/-- Days of the year before the date. -/
def dayOfYear (d : Date) : Nat :=
  daysOf (monthLengths d.year) (d.month - 1) + (d.day - 1)

/-- Days since 1970-01-01. -/
def dayNumber (d : Date) : Int :=
  daysBeforeYear d.year + d.dayOfYear - epochOffset

/-- The month and day, both counted from 1, of the `n`-th day of a run of months. -/
def monthAndDay : (lengths : List Nat) → (n : Nat) → Nat × Nat
  | [], n => (1, n + 1)
  | length :: lengths, n =>
    if n < length then (1, n + 1)
    else
      let later := monthAndDay lengths (n - length)
      (later.1 + 1, later.2)

/-- The year that holds the `n`-th day since 0001-01-01: the mean length of a year gives
it or the year before it. -/
def yearOfDay (n : Int) : Int :=
  let year := 400 * n / 146097 + 1
  if daysBeforeYear (year + 1) ≤ n then year + 1 else year

theorem daysBeforeYear_yearOfDay_le (n : Int) : daysBeforeYear (yearOfDay n) ≤ n := by
  unfold yearOfDay daysBeforeYear
  dsimp only
  split <;> omega

theorem lt_daysBeforeYear_yearOfDay_succ (n : Int) : n < daysBeforeYear (yearOfDay n + 1) := by
  unfold yearOfDay daysBeforeYear
  dsimp only
  split <;> omega

theorem monthAndDay_le (lengths : List Nat) (n : Nat) (h : n < daysOf lengths lengths.length) :
    1 ≤ (monthAndDay lengths n).1 ∧ (monthAndDay lengths n).1 ≤ lengths.length ∧
      1 ≤ (monthAndDay lengths n).2 ∧
      (monthAndDay lengths n).2 ≤ lengths[(monthAndDay lengths n).1 - 1]?.getD 0 ∧
      daysOf lengths ((monthAndDay lengths n).1 - 1) + ((monthAndDay lengths n).2 - 1) = n := by
  induction lengths generalizing n with
  | nil => exact absurd h (Nat.not_lt_zero n)
  | cons length lengths ih =>
    rw [List.length_cons, daysOf] at h
    unfold monthAndDay
    by_cases inside : n < length
    · rw [if_pos inside]
      exact ⟨Nat.le_refl 1, Nat.le_add_left 1 _, Nat.le_add_left 1 n, inside, by simp [daysOf]⟩
    · obtain ⟨month_pos, month_le, day_pos, day_le, total⟩ := ih (n - length) (by omega)
      rw [if_neg inside]
      obtain ⟨before, same⟩ : ∃ before, (monthAndDay lengths (n - length)).1 = before + 1 :=
        ⟨_, (Nat.sub_add_cancel month_pos).symm⟩
      rw [same] at month_le day_le total
      refine ⟨by simp, ?_, day_pos, ?_, ?_⟩
      · simp only [same, List.length_cons]
        omega
      · simpa [same] using day_le
      · simp only [same, Nat.add_sub_cancel, daysOf] at total ⊢
        omega

theorem dayOfYear_lt (n : Int) :
    (n - daysBeforeYear (yearOfDay n)).toNat <
      daysOf (monthLengths (yearOfDay n)) (monthLengths (yearOfDay n)).length := by
  have low := daysBeforeYear_yearOfDay_le n
  have high := lt_daysBeforeYear_yearOfDay_succ n
  rw [daysBeforeYear_succ] at high
  rw [daysOf_monthLengths]
  omega

/-- The date with a day number. -/
def ofDayNumber (n : Int) : Date :=
  let n := n + epochOffset
  let year := yearOfDay n
  let split := monthAndDay (monthLengths year) (n - daysBeforeYear year).toNat
  have bounds := monthAndDay_le _ _ (dayOfYear_lt n)
  ⟨year, split.1, split.2, bounds.1, bounds.2.1, bounds.2.2.1, bounds.2.2.2.1⟩

@[simp] theorem dayNumber_ofDayNumber (n : Int) : (ofDayNumber n).dayNumber = n := by
  have bounds := (monthAndDay_le _ _ (dayOfYear_lt (n + epochOffset))).2.2.2.2
  have low := daysBeforeYear_yearOfDay_le (n + epochOffset)
  simp only [dayNumber, dayOfYear, ofDayNumber]
  rw [bounds]
  omega

end Date

end Dossier
