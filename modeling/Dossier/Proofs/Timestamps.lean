import Dossier.Timestamp.Text

/-!
# Timestamps and their texts

A timestamp of a year that has four digits is read back from the text that it is
written as: `Timestamp.parse?_text`. Its text is in the RFC 3339 form with no
offset, so what has to be undone is the writing of the digits and the count of
days in which an offset is taken off. The form without a zone begins as the other
does, but for its readers of numbers, so both are read by one `heading`.
-/

namespace Dossier

/-- The day of a month is found from the days before it. -/
theorem Date.monthAndDay_daysOf {lengths : List Nat} {month day : Nat} (month_pos : 1 ≤ month)
    (month_le : month ≤ lengths.length) (day_pos : 1 ≤ day)
    (day_le : day ≤ lengths[month - 1]?.getD 0) :
    monthAndDay lengths (daysOf lengths (month - 1) + (day - 1)) = (month, day) := by
  induction lengths generalizing month with
  | nil => exact absurd (Nat.le_trans month_pos month_le) (by simp)
  | cons length lengths ih =>
    obtain ⟨before, rfl⟩ : ∃ before, month = before + 1 := ⟨month - 1, by omega⟩
    rw [Nat.add_sub_cancel] at day_le ⊢
    cases before with
    | zero =>
      -- the day lies in the first month
      have inside : day - 1 < length := by
        simp only [List.getElem?_cons_zero, Option.getD_some] at day_le
        omega
      simp only [monthAndDay, daysOf, Nat.zero_add, if_pos inside]
      rw [Nat.sub_add_cancel day_pos]
    | succ before =>
      -- the first month is passed over, and the day is one of the other months
      have outside : ¬daysOf (length :: lengths) (before + 1) + (day - 1) < length := by
        rw [daysOf]
        omega
      have rest : daysOf (length :: lengths) (before + 1) + (day - 1) - length =
          daysOf lengths (before + 1 - 1) + (day - 1) := by
        rw [daysOf, Nat.add_sub_cancel]
        omega
      have later : monthAndDay lengths (daysOf lengths (before + 1 - 1) + (day - 1)) =
          (before + 1, day) :=
        ih (by omega) (by simpa using month_le) (by simpa using day_le)
      rw [monthAndDay, if_neg outside, rest, later]

theorem daysInMonth_le (year : Int) (month : Nat) : daysInMonth year month ≤ 31 := by
  have all : ∀ days ∈ monthLengths year, days ≤ 31 := by
    unfold monthLengths
    split <;> decide
  unfold daysInMonth
  cases found : (monthLengths year)[month - 1]? with
  | none => exact Nat.zero_le _
  | some days => exact all days (List.mem_of_getElem? found)

theorem daysBeforeYear_mono {a b : Int} (h : a ≤ b) : daysBeforeYear a ≤ daysBeforeYear b := by
  rcases Int.lt_or_eq_of_le h with before | rfl
  · unfold daysBeforeYear
    omega
  · exact Int.le_refl _

/-- A year is known by any of its days. -/
theorem Date.yearOfDay_eq {year n : Int} (low : daysBeforeYear year ≤ n)
    (high : n < daysBeforeYear (year + 1)) : yearOfDay n = year := by
  have low' := daysBeforeYear_yearOfDay_le n
  have high' := lt_daysBeforeYear_yearOfDay_succ n
  -- in any other year the day would be beyond the end or before the beginning
  rcases Int.lt_trichotomy (yearOfDay n) year with before | same | after
  · have := daysBeforeYear_mono (Int.add_one_le_of_lt before)
    omega
  · exact same
  · have := daysBeforeYear_mono (Int.add_one_le_of_lt after)
    omega

/-- A day of one month lies before every later month. -/
theorem daysOf_add_lt {lengths : List Nat} {months count day : Nat}
    (h : day < lengths[months]?.getD 0) (later : months < count) :
    daysOf lengths months + day < daysOf lengths count := by
  induction lengths generalizing months count with
  | nil => exact absurd h (by simp)
  | cons length lengths ih =>
    obtain ⟨before, rfl⟩ : ∃ before, count = before + 1 := ⟨count - 1, by omega⟩
    cases months with
    | zero =>
      simp only [List.getElem?_cons_zero, Option.getD_some] at h
      simp only [daysOf]
      omega
    | succ months =>
      have beyond := ih (by simpa using h) (Nat.lt_of_succ_lt_succ later)
      simp only [daysOf]
      omega

theorem Date.day_pred_lt (d : Date) : d.day - 1 < (monthLengths d.year)[d.month - 1]?.getD 0 := by
  have inside := d.day_le
  have first := d.day_pos
  unfold daysInMonth at inside
  omega

theorem Date.dayOfYear_lt_daysInYear (d : Date) : d.dayOfYear < daysInYear d.year := by
  have month_pos := d.month_pos
  have month_le := d.month_le
  rw [← daysOf_monthLengths]
  exact daysOf_add_lt d.day_pred_lt (by simp only [monthLengths, List.length_cons]; omega)

/-- The years before a given one are those of the days before its first. -/
theorem Date.year_lt_iff (d : Date) (year : Int) :
    d.year < year ↔ d.dayNumber + epochOffset < daysBeforeYear year := by
  have inYear := d.dayOfYear_lt_daysInYear
  have next := daysBeforeYear_succ d.year
  unfold dayNumber
  rcases Int.lt_or_le d.year year with before | from_year
  · have years := daysBeforeYear_mono (Int.add_one_le_of_lt before)
    omega
  · have years := daysBeforeYear_mono from_year
    omega

@[simp] theorem Date.ofDayNumber_dayNumber (d : Date) : ofDayNumber d.dayNumber = d := by
  have inYear := d.dayOfYear_lt_daysInYear
  have next := daysBeforeYear_succ d.year
  have day : d.dayNumber + epochOffset = daysBeforeYear d.year + d.dayOfYear := by
    unfold dayNumber
    omega
  have year : yearOfDay (d.dayNumber + epochOffset) = d.year := by
    refine yearOfDay_eq ?_ ?_ <;> omega
  have split : monthAndDay (monthLengths d.year)
      (d.dayNumber + epochOffset - daysBeforeYear d.year).toNat = (d.month, d.day) := by
    have rest : (d.dayNumber + epochOffset - daysBeforeYear d.year).toNat = d.dayOfYear := by omega
    rw [rest]
    exact monthAndDay_daysOf d.month_pos d.month_le d.day_pos d.day_le
  unfold ofDayNumber
  simp only [year, split]

theorem Date.eq_ofDayNumber_iff {d : Date} {n : Int} : d = ofDayNumber n ↔ d.dayNumber = n := by
  refine ⟨fun same => ?_, fun same => ?_⟩
  · rw [same, dayNumber_ofDayNumber]
  · rw [← same, ofDayNumber_dayNumber]

theorem Date.of?_eq (d : Date) : Date.of? d.year d.month d.day = some d :=
  dif_pos ⟨d.month_pos, d.month_le, d.day_pos, d.day_le⟩

/-! ## Reading digits -/

namespace Text

theorem toNat_of_isDigit {c : Char} (digit : c.isDigit = true) : 48 ≤ c.toNat ∧ c.toNat ≤ 57 := by
  simpa [Char.isDigit, UInt32.le_iff_toNat_le] using digit

theorem isBlank_of_isDigit {c : Char} (digit : c.isDigit = true) : isBlank c = false := by
  have apart : ∀ range ∈ blankRanges, range.2 < 48 ∨ 57 < range.1 := by decide
  have bounds := toNat_of_isDigit digit
  refine List.any_eq_false.2 fun range member => ?_
  have outside := apart range member
  simp only [Bool.and_eq_true, decide_eq_true_eq]
  omega

theorem isDigit_fixedWidth {width n : Nat} {c : Char} (h : c ∈ fixedWidth 10 width n) :
    c.isDigit = true := by
  induction width generalizing n with
  | zero => exact absurd h List.not_mem_nil
  | succ width ih =>
    rcases List.mem_append.1 h with before | last
    · exact ih before
    · rw [List.mem_singleton.1 last, Nat.isDigit_digitChar, decide_eq_true_iff]
      exact Nat.mod_lt n (by decide)

/-- A numeral of so many decimal digits. -/
structure Numeral (width : Nat) (digits : List Char) : Prop where
  length : digits.length = width
  digit : ∀ c ∈ digits, c.isDigit = true

theorem numeral_fixedWidth (width n : Nat) : Numeral width (fixedWidth 10 width n) :=
  ⟨length_fixedWidth 10 width n, fun _ => isDigit_fixedWidth⟩

theorem Numeral.ne_nil {width : Nat} {digits : List Char} (numeral : Numeral width digits)
    (some : 0 < width) : digits ≠ [] := by
  rintro rfl
  exact absurd numeral.length (Nat.ne_of_lt some)

namespace Reader

variable {α β : Type}

theorem bind_eq_some {x : Reader α} {f : α → Reader β} {cs rest : List Char} {value : α}
    (h : x cs = some (value, rest)) : (x >>= f) cs = f value rest := by
  show (x cs).bind _ = _
  rw [h]
  rfl

theorem bind_eq_none {x : Reader α} {f : α → Reader β} {cs : List Char} (h : x cs = none) :
    (x >>= f) cs = none := by
  show (x cs).bind _ = _
  rw [h]
  rfl

theorem lift_eq (x : Option α) (cs : List Char) : (x : Reader α) cs = x.map (·, cs) := by
  cases x <;> rfl

/-- A numeral is read whole, whatever follows it, if no more digits are taken. -/
theorem number_append {least width : Nat} {digits : List Char} (numeral : Numeral width digits)
    (enough : least ≤ width) (rest : List Char) :
    number least width (digits ++ rest) = some (Nat.ofDigitChars 10 digits 0, rest) := by
  have taken : digits.takeWhile Char.isDigit = digits := by
    have all : (digits ++ []).takeWhile Char.isDigit = digits ++ [].takeWhile Char.isDigit :=
      List.takeWhile_append_of_pos numeral.digit
    simpa using all
  have read : Reader.digits least width (digits ++ rest) = some (digits, rest) := by
    unfold Reader.digits
    rw [List.take_left' numeral.length, taken]
    simp only [numeral.length, enough, if_true]
    rw [List.drop_left' numeral.length]
  rw [number, map_eq_pure_bind, bind_eq_some read]
  rfl

theorem expect_cons (c : Char) (rest : List Char) : expect c (c :: rest) = some ((), rest) :=
  if_pos rfl

theorem oneOf_cons {choices : List Char} {c : Char} (h : c ∈ choices) (rest : List Char) :
    oneOf choices (c :: rest) = some (c, rest) := if_pos h

theorem expect_eq (c : Char) : expect c = (fun _ => ()) <$> oneOf [c] := by
  funext cs
  cases cs with
  | nil => rfl
  | cons d rest =>
    show expect c (d :: rest) = (oneOf [c] (d :: rest)).bind fun read => some ((), read.2)
    simp only [expect, oneOf, List.mem_singleton]
    split <;> rfl

/-- All digits are read if what follows them does not begin with one. -/
theorem allDigits_append {digits rest : List Char} (nonempty : digits ≠ [])
    (each : ∀ c ∈ digits, c.isDigit = true) (other : ∀ c ∈ rest.head?, c.isDigit = false) :
    allDigits (digits ++ rest) = some (digits, rest) := by
  have none : rest.takeWhile Char.isDigit = [] ∧ rest.dropWhile Char.isDigit = rest := by
    cases rest with
    | nil => exact ⟨rfl, rfl⟩
    | cons c rest => simp [other c rfl]
  have taken : (digits ++ rest).takeWhile Char.isDigit = digits := by
    rw [List.takeWhile_append_of_pos each, none.1, List.append_nil]
  have dropped : (digits ++ rest).dropWhile Char.isDigit = rest := by
    rw [List.dropWhile_append_of_pos each, none.2]
  unfold allDigits
  rw [taken, dropped]
  cases digits with
  | nil => exact absurd rfl nonempty
  | cons => rfl

/-- Before a digit there are no blanks to pass over. -/
theorem blanks_append {digits : List Char} (nonempty : digits ≠ [])
    (each : ∀ c ∈ digits, c.isDigit = true) (rest : List Char) :
    blanks (digits ++ rest) = some ((), digits ++ rest) := by
  obtain ⟨c, more, rfl⟩ := List.exists_cons_of_ne_nil nonempty
  have visible : isBlank c = false := isBlank_of_isDigit (each c List.mem_cons_self)
  rw [List.cons_append, blanks, skipBlanks, List.dropWhile_cons_of_neg (by simp [visible])]

end Reader

end Text

namespace Timestamp

open Text (Reader)

theorem of?_eq (t : Timestamp) : of? t.date t.hour t.minute t.second t.milli = some t :=
  dif_pos ⟨t.hour_lt, t.minute_lt, t.second_le, t.milli_lt, t.year_bounds⟩

theorem of?_eq_some_iff {date : Date} {hour minute second milli : Nat} {t : Timestamp} :
    of? date hour minute second milli = some t ↔
      t.date = date ∧ t.hour = hour ∧ t.minute = minute ∧ t.second = second ∧ t.milli = milli := by
  refine ⟨fun given => ?_, ?_⟩
  · unfold of? at given
    split at given
    · obtain rfl := Option.some.inj given
      exact ⟨rfl, rfl, rfl, rfl, rfl⟩
    · exact absurd given (by simp)
  · rintro ⟨rfl, rfl, rfl, rfl, rfl⟩
    exact t.of?_eq

/-- Minutes from 1970 to the minute that the timestamp lies in. -/
def minuteNumber (t : Timestamp) : Int := t.date.dayNumber * 1440 + t.hour * 60 + t.minute

theorem millis_eq (t : Timestamp) :
    t.millis = t.minuteNumber * 60000 + t.second * 1000 + t.milli := by
  unfold millis minuteNumber
  omega

/-- Taking minutes off moves the minute alone, so it keeps leap seconds. -/
theorem minutesBefore?_eq_some_iff {t u : Timestamp} {minutes : Int} :
    t.minutesBefore? minutes = some u ↔
      u.minuteNumber = t.minuteNumber - minutes ∧ u.second = t.second ∧ u.milli = t.milli := by
  have hour := u.hour_lt
  have minute := u.minute_lt
  unfold minutesBefore? minuteNumber
  rw [of?_eq_some_iff, Date.eq_ofDayNumber_iff]
  constructor
  · rintro ⟨day, hours, minutes', second, milli⟩
    exact ⟨by omega, second, milli⟩
  · rintro ⟨same, second, milli⟩
    exact ⟨by omega, by omega, by omega, second, milli⟩

theorem minutesBefore?_zero (t : Timestamp) : t.minutesBefore? 0 = some t :=
  minutesBefore?_eq_some_iff.2 ⟨(Int.sub_zero _).symm, rfl, rfl⟩

/-! ## The layout of both forms -/

/-- The numbers of a date and time of day in whole seconds. -/
structure Parts where
  year : Int
  month : Nat
  day : Nat
  hour : Nat
  minute : Nat
  second : Nat

def Parts.timestamp? (parts : Parts) (milli : Nat) : Option Timestamp := do
  let date ← Date.of? parts.year parts.month parts.day
  of? date parts.hour parts.minute parts.second milli

/-- What both forms begin with, up to the fraction, by the readers of their numbers. -/
def heading (readYear : Reader Int) (readNumber : Reader Nat) (letters : List Char) :
    Reader Parts := do
  let year ← readYear
  Reader.expect '-'
  let month ← readNumber
  Reader.expect '-'
  let day ← readNumber
  let _ ← Reader.oneOf letters
  let hour ← readNumber
  Reader.expect ':'
  let minute ← readNumber
  Reader.expect ':'
  let second ← readNumber
  return ⟨year, month, day, hour, minute, second⟩

theorem rfc3339_eq :
    rfc3339 = (do
      let parts ← heading (Nat.cast <$> Reader.number 4 4) (Reader.number 2 2) ['T', 't', ' ']
      let milli ← fraction
      let minutesEast ← offset
      let here ← parts.timestamp? milli
      here.minutesBefore? minutesEast) := by
  unfold rfc3339 heading Parts.timestamp?
  simp only [bind_assoc, pure_bind, liftM_bind, bind_map_left]

theorem zoneless_eq :
    zoneless = (do
      let parts ← heading laxYear laxNumber ['T']
      let milli ← fraction
      parts.timestamp? milli) := by
  unfold zoneless heading Parts.timestamp?
  simp only [bind_assoc, pure_bind, liftM_bind, bind_map_left, Reader.expect_eq 'T']

/-- A date and time of day in characters: what stands between the separators. -/
structure Written where
  year : List Char
  month : List Char
  day : List Char
  letter : Char
  hour : List Char
  minute : List Char
  second : List Char

namespace Written

def chars (w : Written) : List Char :=
  w.year ++ '-' :: (w.month ++ '-' :: (w.day ++ w.letter ::
    (w.hour ++ ':' :: (w.minute ++ ':' :: w.second))))

/-- The parts but the year have two digits each. -/
structure TwoDigits (w : Written) : Prop where
  month : Text.Numeral 2 w.month
  day : Text.Numeral 2 w.day
  hour : Text.Numeral 2 w.hour
  minute : Text.Numeral 2 w.minute
  second : Text.Numeral 2 w.second

/-- The numbers that are written, with the year as it is read. -/
def parts (w : Written) (year : Int) : Parts where
  year := year
  month := Nat.ofDigitChars 10 w.month 0
  day := Nat.ofDigitChars 10 w.day 0
  hour := Nat.ofDigitChars 10 w.hour 0
  minute := Nat.ofDigitChars 10 w.minute 0
  second := Nat.ofDigitChars 10 w.second 0

end Written

/-- Every part is read from the front of what the parts before it have left. -/
theorem heading_append {readYear : Reader Int} {readNumber : Reader Nat} {w : Written} {year : Int}
    (years : ∀ rest, readYear (w.year ++ '-' :: rest) = some (year, '-' :: rest))
    (numbers : ∀ {digits}, Text.Numeral 2 digits →
      ∀ rest, readNumber (digits ++ rest) = some (Nat.ofDigitChars 10 digits 0, rest))
    (two : w.TwoDigits) (letters rest : List Char) :
    heading readYear readNumber letters (w.chars ++ rest) =
      if w.letter ∈ letters then some (w.parts year, rest) else none := by
  rw [Written.chars, heading]
  simp only [List.append_assoc, List.cons_append]
  rw [Reader.bind_eq_some (years _), Reader.bind_eq_some (Reader.expect_cons '-' _)]
  rw [Reader.bind_eq_some (numbers two.month _), Reader.bind_eq_some (Reader.expect_cons '-' _)]
  rw [Reader.bind_eq_some (numbers two.day _)]
  by_cases known : w.letter ∈ letters
  · rw [Reader.bind_eq_some (Reader.oneOf_cons known _), if_pos known]
    rw [Reader.bind_eq_some (numbers two.hour _), Reader.bind_eq_some (Reader.expect_cons ':' _)]
    rw [Reader.bind_eq_some (numbers two.minute _), Reader.bind_eq_some (Reader.expect_cons ':' _)]
    rw [Reader.bind_eq_some (numbers two.second _)]
    rfl
  · rw [Reader.bind_eq_none (if_neg known), if_neg known]

theorem laxNumber_append {digits : List Char} (two : Text.Numeral 2 digits) (rest : List Char) :
    laxNumber (digits ++ rest) = some (Nat.ofDigitChars 10 digits 0, rest) := by
  have none := Reader.blanks_append (two.ne_nil (by decide)) two.digit rest
  rw [laxNumber, Reader.bind_eq_some none, Reader.number_append two (by decide)]

/-- A point and digits, if there are digits. -/
def fractionChars : (digits : List Char) → List Char
  | [] => []
  | d :: digits => '.' :: d :: digits

theorem fraction_append {digits rest : List Char} (each : ∀ c ∈ digits, c.isDigit = true)
    (other : ∀ c ∈ rest.head?, c.isDigit = false ∧ c ≠ '.') :
    fraction (fractionChars digits ++ rest) = some (fractionMillis digits, rest) := by
  cases digits with
  | nil =>
    have point : Reader.optional ['.'] rest = some (none, rest) := by
      cases rest with
      | nil => rfl
      | cons c rest => simp [Reader.optional, (other c rfl).2]
    rw [fractionChars, List.nil_append, fraction, Reader.bind_eq_some point]
    rfl
  | cons d digits =>
    have point : Reader.optional ['.'] ('.' :: (d :: digits ++ rest)) =
        some (some '.', d :: digits ++ rest) := rfl
    have read : Reader.allDigits (d :: digits ++ rest) = some (d :: digits, rest) :=
      Reader.allDigits_append (List.cons_ne_nil d digits) each fun c first => (other c first).1
    rw [fractionChars, List.cons_append, fraction, Reader.bind_eq_some point]
    dsimp only
    rw [Reader.bind_eq_some read]
    rfl

theorem offset_zulu (rest : List Char) : offset ('Z' :: rest) = some (0, rest) := rfl

/-! ## Texts in the RFC 3339 form -/

theorem laxYear_append {digits : List Char} (four : Text.Numeral 4 digits) (rest : List Char) :
    laxYear (digits ++ rest) = some ((Nat.ofDigitChars 10 digits 0 : Int), rest) := by
  have none := Reader.blanks_append (four.ne_nil (by decide)) four.digit rest
  have unsigned : Reader.optional ['-', '+'] (digits ++ rest) =
      some (Option.none, digits ++ rest) := by
    obtain ⟨c, more, rfl⟩ := List.exists_cons_of_ne_nil (four.ne_nil (by decide))
    have digit := four.digit c List.mem_cons_self
    have known : c ∉ ['-', '+'] := by
      intro sign
      simp only [List.mem_cons, List.not_mem_nil, or_false] at sign
      rcases sign with rfl | rfl <;> exact absurd digit (by decide)
    rw [List.cons_append, Reader.optional, if_neg known]
  rw [laxYear, Reader.bind_eq_some none, Reader.bind_eq_some unsigned]
  dsimp only
  rw [Reader.bind_eq_some (Reader.number_append four (by decide) rest)]
  rfl

/-- The date and time of day of a text in the RFC 3339 form. -/
structure LocalTime extends Written where
  /-- The digits of the fraction, none if there is no point. -/
  fraction : List Char
  year_numeral : Text.Numeral 4 year
  twoDigits : toWritten.TwoDigits
  letter_mem : letter ∈ ['T', 't', ' ']
  fraction_digits : ∀ c ∈ fraction, c.isDigit = true

theorem capital_mem : 'T' ∈ ['T', 't', ' '] := List.mem_cons_self

namespace LocalTime

def chars (l : LocalTime) : List Char := l.toWritten.chars ++ fractionChars l.fraction

/-- The timestamp that is read, if the zone is UTC. -/
def timestamp? (l : LocalTime) : Option Timestamp :=
  (l.toWritten.parts (Nat.ofDigitChars 10 l.year 0 : Nat)).timestamp? (fractionMillis l.fraction)

variable (l : LocalTime) {rest : List Char}
  (other : ∀ c ∈ rest.head?, c.isDigit = false ∧ c ≠ '.')

include other

/-- The RFC 3339 form takes all but the zone, and then the zone. -/
theorem rfc3339_append :
    rfc3339 (l.chars ++ rest) =
      (do
        let minutesEast ← offset
        let here ← l.timestamp?
        here.minutesBefore? minutesEast : Reader Timestamp) rest := by
  have years : ∀ rest, (Nat.cast <$> Reader.number 4 4 : Reader Int) (l.year ++ '-' :: rest) =
      some (((Nat.ofDigitChars 10 l.year 0 : Nat) : Int), '-' :: rest) := by
    intro rest
    rw [map_eq_pure_bind, Reader.bind_eq_some
      (Reader.number_append l.year_numeral (Nat.le_refl 4) _)]
    rfl
  have head := heading_append years (fun two => Reader.number_append two (Nat.le_refl 2))
    l.twoDigits ['T', 't', ' '] (fractionChars l.fraction ++ rest)
  rw [if_pos l.letter_mem] at head
  rw [chars, List.append_assoc, rfc3339_eq, Reader.bind_eq_some head,
    Reader.bind_eq_some (fraction_append l.fraction_digits other)]
  rfl

/-- The form without a zone takes all but the zone too, if the letter is the only one it knows. -/
theorem zoneless_append :
    zoneless (l.chars ++ rest) =
      (if l.letter = 'T' then l.timestamp? else none).map (·, rest) := by
  have head := heading_append (fun rest => laxYear_append l.year_numeral ('-' :: rest))
    laxNumber_append l.twoDigits ['T'] (fractionChars l.fraction ++ rest)
  rw [chars, List.append_assoc, zoneless_eq]
  by_cases known : l.letter = 'T'
  · rw [if_pos (List.mem_singleton.2 known)] at head
    rw [if_pos known, Reader.bind_eq_some head,
      Reader.bind_eq_some (fraction_append l.fraction_digits other), Reader.lift_eq]
    rfl
  · rw [if_neg (by simpa using known)] at head
    rw [if_neg known, Reader.bind_eq_none head, Option.map_none]

end LocalTime

/-- The parts that a timestamp is written in. -/
def written (t : Timestamp) : Written where
  year := yearChars t.date.year
  month := Text.fixedWidth 10 2 t.date.month
  day := Text.fixedWidth 10 2 t.date.day
  letter := 'T'
  hour := Text.fixedWidth 10 2 t.hour
  minute := Text.fixedWidth 10 2 t.minute
  second := Text.fixedWidth 10 2 t.second

theorem chars_eq (t : Timestamp) :
    t.chars = t.written.chars ++ (fractionChars (Text.fixedWidth 10 3 t.milli) ++ ['Z']) := by
  simp only [chars, Written.chars, written, fractionChars, Text.fixedWidth, List.append_assoc,
    List.cons_append, List.nil_append]

theorem written_twoDigits (t : Timestamp) : t.written.TwoDigits where
  month := Text.numeral_fixedWidth 2 _
  day := Text.numeral_fixedWidth 2 _
  hour := Text.numeral_fixedWidth 2 _
  minute := Text.numeral_fixedWidth 2 _
  second := Text.numeral_fixedWidth 2 _

/-- The parts that are read are those of the timestamp, so nothing is refused. -/
theorem written_parts (t : Timestamp) :
    (t.written.parts t.date.year).timestamp? t.milli = some t := by
  have two : ∀ {n : Nat}, n < 100 → n % Nat.pow 10 2 = n := by
    intro n small
    exact Nat.mod_eq_of_lt small
  have month := t.date.month_le
  have hour := t.hour_lt
  have minute := t.minute_lt
  have second := t.second_le
  have day := Nat.le_trans t.date.day_le (daysInMonth_le t.date.year t.date.month)
  simp only [Parts.timestamp?, Written.parts, written, Text.ofDigitChars_fixedWidth]
  rw [two (by omega), two (by omega), two (by omega), two (by omega), two (by omega), Date.of?_eq]
  exact t.of?_eq

theorem fractionMillis_fixedWidth {milli : Nat} (h : milli < 1000) :
    fractionMillis (Text.fixedWidth 10 3 milli) = milli := by
  have three := Text.length_fixedWidth 10 3 milli
  rw [fractionMillis, List.take_of_length_le (Nat.le_of_eq three), List.rightpad, three,
    Nat.sub_self, List.replicate_zero, List.append_nil, Text.ofDigitChars_fixedWidth]
  exact Nat.mod_eq_of_lt h

/-- The text of a timestamp up to its zone, if the year has four digits. -/
def localTime (t : Timestamp) (year : 0 ≤ t.date.year ∧ t.date.year ≤ 9999) : LocalTime where
  toWritten := t.written
  fraction := Text.fixedWidth 10 3 t.milli
  year_numeral := by
    rw [written, yearChars, if_pos year]
    exact Text.numeral_fixedWidth 4 _
  twoDigits := t.written_twoDigits
  letter_mem := capital_mem
  fraction_digits _ := Text.isDigit_fixedWidth

theorem localTime_timestamp? (t : Timestamp) (year : 0 ≤ t.date.year ∧ t.date.year ≤ 9999) :
    (t.localTime year).timestamp? = some t := by
  have years : t.written.year = Text.fixedWidth 10 4 t.date.year.toNat := if_pos year
  have value : ((t.date.year.toNat % Nat.pow 10 4 : Nat) : Int) = t.date.year := by
    rw [Nat.mod_eq_of_lt (by show _ < 10000; omega), Int.toNat_of_nonneg year.1]
  rw [LocalTime.timestamp?, localTime]
  dsimp only
  rw [years, Text.ofDigitChars_fixedWidth, value, fractionMillis_fixedWidth t.milli_lt]
  exact t.written_parts

/-- **Reading what is written.** -/
theorem rfc3339_chars (t : Timestamp) (year : 0 ≤ t.date.year ∧ t.date.year ≤ 9999) :
    rfc3339 t.chars = some (t, []) := by
  have zoned : t.chars = (t.localTime year).chars ++ ['Z'] := by
    rw [chars_eq, LocalTime.chars, List.append_assoc]
    rfl
  have here : ((t.localTime year).timestamp? : Reader Timestamp) [] = some (t, []) := by
    rw [Reader.lift_eq, localTime_timestamp?]
    rfl
  rw [zoned, LocalTime.rfc3339_append _ (by simp), Reader.bind_eq_some (offset_zulu _),
    Reader.bind_eq_some here, minutesBefore?_zero]
  rfl

/-- A timestamp of a year of four digits is read back from its text. -/
theorem parse?_text (t : Timestamp) (year : 0 ≤ t.date.year ∧ t.date.year ≤ 9999) :
    parse? t.text = some t := by
  unfold parse? text ofChars? Reader.whole
  rw [String.toList_ofList, rfc3339_chars t year]
  rfl

/-! ## Years that are not of four digits -/

/-- A year with a sign has at least four digits, and they have its value. -/
theorem digits_leftpad (n : Nat) :
    (Nat.toDigits 10 n).leftpad 4 '0' ≠ [] ∧
    (∀ c ∈ (Nat.toDigits 10 n).leftpad 4 '0', c.isDigit = true) ∧
    Nat.ofDigitChars 10 ((Nat.toDigits 10 n).leftpad 4 '0') 0 = n := by
  refine ⟨?_, ?_, ?_⟩
  · simp [List.leftpad, Nat.toDigits_ne_nil]
  · intro c member
    rcases List.mem_append.1 member with padding | digit
    · rw [List.eq_of_mem_replicate padding]
      rfl
    · exact Nat.isDigit_of_mem_toDigits (by decide) (by decide) digit
  · rw [List.leftpad, Nat.ofDigitChars_append, Nat.ofDigitChars_replicate_zero, Nat.mul_zero]
    exact Nat.ofDigitChars_ten_toDigits

/-- Digits after a sign are read as a year. -/
theorem laxYear_sign {sign : Char} (signed : sign ∈ ['-', '+']) {digits : List Char}
    (nonempty : digits ≠ []) (each : ∀ c ∈ digits, c.isDigit = true) (rest : List Char) :
    laxYear (sign :: (digits ++ '-' :: rest)) =
      some (if sign = '-' then -(Nat.ofDigitChars 10 digits 0 : Int)
        else (Nat.ofDigitChars 10 digits 0 : Int), '-' :: rest) := by
  have none : Reader.blanks (sign :: (digits ++ '-' :: rest)) =
      some ((), sign :: (digits ++ '-' :: rest)) := by
    simp only [List.mem_cons, List.not_mem_nil, or_false] at signed
    rcases signed with rfl | rfl <;> rfl
  have taken : Reader.optional ['-', '+'] (sign :: (digits ++ '-' :: rest)) =
      some (some sign, digits ++ '-' :: rest) := by
    rw [Reader.optional, if_pos signed]
  have stops : ∀ c ∈ ('-' :: rest).head?, c.isDigit = false := by
    rintro _ ⟨⟩
    rfl
  rw [laxYear, Reader.bind_eq_some none, Reader.bind_eq_some taken]
  dsimp only
  rw [Reader.bind_eq_some (Reader.allDigits_append nonempty each stops)]
  rfl

theorem mem_yearChars {year : Int} {c : Char} (h : c ∈ yearChars year) :
    c.isDigit = true ∨ c ∈ ['-', '+'] := by
  unfold yearChars at h
  split at h
  · exact .inl (Text.isDigit_fixedWidth h)
  · rcases List.mem_cons.1 h with rfl | digit
    · right
      split <;> decide
    · exact .inl ((digits_leftpad _).2.1 c digit)

/-- A year with a sign is read back where signs are read. -/
theorem laxYear_yearChars {year : Int} (outside : ¬(0 ≤ year ∧ year ≤ 9999)) (rest : List Char) :
    laxYear (yearChars year ++ '-' :: rest) = some (year, '-' :: rest) := by
  obtain ⟨nonempty, each, value⟩ := digits_leftpad year.natAbs
  have signed : (if year < 0 then '-' else '+') ∈ ['-', '+'] := by split <;> simp
  rw [yearChars, if_neg outside, List.cons_append, laxYear_sign signed nonempty each, value]
  by_cases negative : year < 0
  · have back : -(year.natAbs : Int) = year := by omega
    simp only [negative, if_true, back]
  · have back : (year.natAbs : Int) = year := by omega
    have plus : ('+' : Char) ≠ '-' := by decide
    simp only [negative, if_false, plus, back]

/-- The form without a zone takes all but the zone. -/
theorem zoneless_chars (t : Timestamp) (outside : ¬(0 ≤ t.date.year ∧ t.date.year ≤ 9999)) :
    zoneless t.chars = some (t, ['Z']) := by
  have head := heading_append (laxYear_yearChars outside) laxNumber_append t.written_twoDigits
    ['T'] (fractionChars (Text.fixedWidth 10 3 t.milli) ++ ['Z'])
  rw [if_pos (by simp [written])] at head
  have milli : fraction (fractionChars (Text.fixedWidth 10 3 t.milli) ++ ['Z']) =
      some (t.milli, ['Z']) := by
    rw [fraction_append (fun _ => Text.isDigit_fixedWidth) (by simp),
      fractionMillis_fixedWidth t.milli_lt]
  rw [chars_eq, zoneless_eq, Reader.bind_eq_some head, Reader.bind_eq_some milli, written_parts]
  rfl

/-- The RFC 3339 form has no signs. -/
theorem rfc3339_signed {t : Timestamp} (outside : ¬(0 ≤ t.date.year ∧ t.date.year ≤ 9999)) :
    rfc3339 t.chars = none := by
  rw [chars, yearChars, if_neg outside]
  split <;> rfl

/-- **What is read of the text of a timestamp**: the timestamp, if its year has four digits. The
text of any other begins with a sign and ends with a zone, and so is in neither form. -/
theorem parse?_text_eq (t : Timestamp) :
    parse? t.text = if 0 ≤ t.date.year ∧ t.date.year ≤ 9999 then some t else none := by
  split
  · next dated => exact parse?_text t dated
  · next outside =>
    unfold parse? text ofChars? Reader.whole
    rw [String.toList_ofList, rfc3339_signed outside, zoneless_chars t outside]
    rfl

end Timestamp

end Dossier
