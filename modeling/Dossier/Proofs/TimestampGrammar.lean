import Mathlib.Data.List.Induction
import Dossier.Proofs.Timestamps

/-!
# The texts that timestamps are read from

A text in the RFC 3339 form is a date and time of day followed by a zone
(`Timestamp.rfc3339_sound`), and an offset takes as many minutes off. A text without a
zone is read as UTC, and the fraction is cut after three digits: `Timestamp.parse_forms`.
-/

namespace Dossier

namespace Text

theorem digitChar_of_isDigit {c : Char} (digit : c.isDigit = true) :
    Nat.digitChar (c.toNat - 48) = c := by
  have code : ∀ d < 10, (Nat.digitChar d).toNat = d + 48 := by decide
  have bounds := toNat_of_isDigit digit
  rw [← Char.toNat_inj, code _ (by omega)]
  omega

/-- Every numeral is written of a number, by induction on the digits but the last. -/
theorem Numeral.exists_eq {width : Nat} {digits : List Char} (numeral : Numeral width digits) :
    ∃ n < Nat.pow 10 width, digits = fixedWidth 10 width n := by
  obtain ⟨rfl, each⟩ := numeral
  induction digits using List.reverseRecOn with
  | nil => exact ⟨0, by decide, rfl⟩
  | append_singleton digits c ih =>
    rw [List.forall_mem_append, List.forall_mem_singleton] at each
    obtain ⟨n, small, same⟩ := ih each.1
    have bounds := toNat_of_isDigit each.2
    have front : (10 * n + (c.toNat - 48)) / 10 = n := by omega
    have last : (10 * n + (c.toNat - 48)) % 10 = c.toNat - 48 := by omega
    rw [List.length_append, List.length_singleton]
    have next : Nat.pow 10 (digits.length + 1) = Nat.pow 10 digits.length * 10 := rfl
    refine ⟨10 * n + (c.toNat - 48), by omega, ?_⟩
    rw [fixedWidth, front, last, ← same, digitChar_of_isDigit each.2]

theorem numeral_of_all {width : Nat} {digits : List Char} (length : digits.length = width)
    (each : digits.all Char.isDigit = true) : Numeral width digits :=
  ⟨length, List.all_eq_true.1 each⟩

theorem Numeral.fixedWidth_eq {width : Nat} {digits : List Char} (numeral : Numeral width digits) :
    fixedWidth 10 width (Nat.ofDigitChars 10 digits 0) = digits := by
  obtain ⟨n, small, rfl⟩ := numeral.exists_eq
  rw [ofDigitChars_fixedWidth]
  exact congrArg _ (Nat.mod_eq_of_lt small)

theorem Numeral.value_lt {width : Nat} {digits : List Char} (numeral : Numeral width digits) :
    Nat.ofDigitChars 10 digits 0 < Nat.pow 10 width := by
  obtain ⟨n, small, rfl⟩ := numeral.exists_eq
  rw [ofDigitChars_fixedWidth]
  exact Nat.mod_lt _ (Nat.pow_pos (by decide))

/-! ## What readers take -/

namespace Reader

variable {α β : Type}

theorem bind_eq_some_iff {x : Reader α} {f : α → Reader β} {cs rest : List Char} {value : β} :
    (x >>= f) cs = some (value, rest) ↔
      ∃ first mid, x cs = some (first, mid) ∧ f first mid = some (value, rest) := by
  show (x cs).bind _ = _ ↔ _
  rw [Option.bind_eq_some_iff, Prod.exists]

theorem lift_eq_some_iff {x : Option α} {cs rest : List Char} {value : α} :
    (x : Reader α) cs = some (value, rest) ↔ x = some value ∧ cs = rest := by
  rw [lift_eq, Option.map_eq_some_iff]
  simp [Prod.ext_iff]

/-- Whatever the reader takes for a value stands in the relation to it. -/
def Takes (reader : Reader α) (Relation : List Char → α → Prop) : Prop :=
  ∀ ⦃cs rest : List Char⦄ ⦃value : α⦄, reader cs = some (value, rest) →
    ∃ taken, cs = taken ++ rest ∧ Relation taken value

/-- The first of two readers takes the front of the text, and the other goes on after it. -/
theorem Takes.of_bind {x : Reader α} {f : α → Reader β} {Relation : List Char → α → Prop}
    (takes : x.Takes Relation) {cs rest : List Char} {value : β}
    (h : (x >>= f) cs = some (value, rest)) :
    ∃ taken mid first, cs = taken ++ mid ∧ Relation taken first ∧
      f first mid = some (value, rest) := by
  obtain ⟨first, mid, read, later⟩ := bind_eq_some_iff.1 h
  obtain ⟨taken, same, related⟩ := takes read
  exact ⟨taken, mid, first, same, related, later⟩

theorem Takes.mono {reader : Reader α} {Relation Weaker : List Char → α → Prop}
    (takes : reader.Takes Relation)
    (weaken : ∀ {taken value}, Relation taken value → Weaker taken value) :
    reader.Takes Weaker := by
  intro cs rest value read
  obtain ⟨taken, same, related⟩ := takes read
  exact ⟨taken, same, weaken related⟩

theorem oneOf_takes (choices : List Char) :
    (oneOf choices).Takes fun taken c => taken = [c] ∧ c ∈ choices := by
  intro cs rest c read
  cases cs with
  | nil => exact absurd read (by simp [oneOf])
  | cons d cs =>
    rw [oneOf] at read
    split at read
    · next known =>
      obtain ⟨rfl, rfl⟩ := Prod.mk.inj (Option.some.inj read)
      exact ⟨[d], rfl, rfl, known⟩
    · exact absurd read (by simp)

theorem expect_takes (c : Char) : (expect c).Takes fun taken _ => taken = [c] := by
  intro cs rest value read
  rw [expect_eq, map_eq_pure_bind] at read
  obtain ⟨_, mid, d, rfl, ⟨rfl, known⟩, done⟩ := (oneOf_takes [c]).of_bind read
  obtain ⟨-, rfl⟩ := Prod.mk.inj (Option.some.inj done)
  exact ⟨[d], rfl, congrArg (fun c => [c]) (List.mem_singleton.1 known)⟩

theorem number_takes (least most : Nat) :
    (number least most).Takes fun digits n =>
      (∀ c ∈ digits, c.isDigit = true) ∧ (least ≤ digits.length ∧ digits.length ≤ most) ∧
        n = Nat.ofDigitChars 10 digits 0 := by
  intro cs rest n read
  rw [number, map_eq_pure_bind, bind_eq_some_iff] at read
  obtain ⟨digits, mid, read, value⟩ := read
  obtain ⟨rfl, rfl⟩ := Prod.mk.inj (Option.some.inj value)
  unfold Reader.digits at read
  dsimp only at read
  split at read
  · next enough =>
    obtain ⟨rfl, rfl⟩ := Prod.mk.inj (Option.some.inj read)
    have inside : (cs.take most).takeWhile Char.isDigit <+: cs.take most := List.takeWhile_prefix _
    have front := List.prefix_iff_eq_append.1 (inside.trans (List.take_prefix most cs))
    have short := Nat.le_trans inside.length_le (List.length_take_le most cs)
    exact ⟨_, front.symm, List.all_eq_true.1 List.all_takeWhile, ⟨enough, short⟩, rfl⟩
  · exact absurd read (by simp)

theorem number_numeral (width : Nat) :
    (number width width).Takes fun digits n =>
      Numeral width digits ∧ n = Nat.ofDigitChars 10 digits 0 :=
  (number_takes width width).mono fun ⟨each, ⟨low, high⟩, value⟩ =>
    ⟨⟨Nat.le_antisymm high low, each⟩, value⟩

theorem optional_takes (choices : List Char) :
    (optional choices).Takes fun taken first =>
      taken = first.toList ∧ ∀ c ∈ first, c ∈ choices := by
  intro cs rest first read
  cases cs with
  | nil =>
    obtain ⟨rfl, rfl⟩ := Prod.mk.inj (Option.some.inj read)
    exact ⟨[], rfl, rfl, by simp⟩
  | cons c cs =>
    rw [optional] at read
    split at read
    · next known =>
      obtain ⟨rfl, rfl⟩ := Prod.mk.inj (Option.some.inj read)
      exact ⟨[c], rfl, rfl, by simpa using known⟩
    · obtain ⟨rfl, rfl⟩ := Prod.mk.inj (Option.some.inj read)
      exact ⟨[], rfl, rfl, by simp⟩

theorem blanks_takes : blanks.Takes fun taken _ => ∀ c ∈ taken, isBlank c = true := by
  intro cs rest value read
  obtain ⟨-, rfl⟩ := Prod.mk.inj (Option.some.inj read)
  exact ⟨cs.takeWhile isBlank, List.takeWhile_append_dropWhile.symm,
    List.all_eq_true.1 List.all_takeWhile⟩

/-- All digits are taken, so none follows. -/
theorem allDigits_sound {digits cs rest : List Char} (h : allDigits cs = some (digits, rest)) :
    cs = digits ++ rest ∧ digits ≠ [] ∧ (∀ c ∈ digits, c.isDigit = true) ∧
      ∀ c ∈ rest.head?, c.isDigit = false := by
  have stops : ∀ c ∈ (cs.dropWhile Char.isDigit).head?, c.isDigit = false := by
    have head := List.head?_dropWhile_not Char.isDigit cs
    intro c first
    rw [Option.mem_def.1 first] at head
    simpa using head
  unfold allDigits at h
  split at h
  · exact absurd h (by simp)
  · next nonempty =>
    obtain ⟨rfl, rfl⟩ := Prod.mk.inj (Option.some.inj h)
    exact ⟨List.takeWhile_append_dropWhile.symm, nonempty, List.all_eq_true.1 List.all_takeWhile,
      stops⟩

theorem whole_eq_some_iff {reader : Reader α} {cs : List Char} {value : α} :
    reader.whole cs = some value ↔ reader cs = some (value, []) := by
  unfold whole
  split
  · next read => simp [read]
  · next other =>
    simp only [reduceCtorEq, false_iff]
    exact other value

theorem whole_of_map {reader : Reader α} {cs rest : List Char} {x : Option α}
    (h : reader cs = x.map (·, rest)) : reader.whole cs = if rest = [] then x else none := by
  unfold whole
  rw [h]
  cases x <;> cases rest <;> rfl

end Reader

end Text

namespace Timestamp

open Text (Reader)

/-! ## Zones -/

/-- A zone and its offset, in minutes east of UTC. -/
inductive Zone : List Char → Int → Prop
  | utc {letter : Char} (known : letter ∈ ['Z', 'z']) : Zone [letter] 0
  | offset {sign : Char} {hours minutes : List Char} (known : sign ∈ ['+', '-', '\u2212'])
      (two : Text.Numeral 2 hours) (two' : Text.Numeral 2 minutes)
      (hour_lt : Nat.ofDigitChars 10 hours 0 < 24)
      (minute_lt : Nat.ofDigitChars 10 minutes 0 < 60) :
      Zone (sign :: (hours ++ ':' :: minutes))
        ((if sign = '+' then 1 else -1) *
          (Nat.ofDigitChars 10 hours 0 * 60 + Nat.ofDigitChars 10 minutes 0 : Nat))

namespace Zone

theorem offset_append {zone : List Char} {east : Int} (zoned : Zone zone east)
    (rest : List Char) : Timestamp.offset (zone ++ rest) = some (east, rest) := by
  cases zoned with
  | utc known =>
    simp only [List.mem_cons, List.not_mem_nil, or_false] at known
    rcases known with rfl | rfl <;> rfl
  | @offset sign hours minutes known two two' hour_lt minute_lt =>
    have signed : sign ∈ ['Z', 'z', '+', '-', '\u2212'] := List.mem_cons_of_mem _
      (List.mem_cons_of_mem _ known)
    have numeric : ¬(sign = 'Z' ∨ sign = 'z') := by
      rintro (rfl | rfl) <;> exact absurd known (by decide)
    rw [List.cons_append, List.append_assoc, List.cons_append, Timestamp.offset,
      Reader.bind_eq_some (Reader.oneOf_cons signed _)]
    rw [if_neg numeric]
    rw [Reader.bind_eq_some (Reader.number_append two (Nat.le_refl 2) _),
      Reader.bind_eq_some (Reader.expect_cons ':' _),
      Reader.bind_eq_some (Reader.number_append two' (Nat.le_refl 2) _)]
    rw [if_pos ⟨hour_lt, minute_lt⟩]
    rfl

end Zone

theorem offset_takes : offset.Takes Zone := by
  intro cs rest east read
  rw [offset] at read
  obtain ⟨_, _, sign, rfl, ⟨rfl, signed⟩, afterSign⟩ := (Reader.oneOf_takes _).of_bind read
  split at afterSign
  · next letter =>
    obtain ⟨rfl, rfl⟩ := Prod.mk.inj (Option.some.inj afterSign)
    exact ⟨[sign], rfl, .utc (by simpa using letter)⟩
  · next numeric =>
    obtain ⟨hours, _, _, rfl, ⟨two, rfl⟩, afterHours⟩ := (Reader.number_numeral 2).of_bind afterSign
    obtain ⟨_, _, _, rfl, rfl, afterColon⟩ := (Reader.expect_takes ':').of_bind afterHours
    obtain ⟨minutes, _, _, rfl, ⟨two', rfl⟩, afterMinutes⟩ :=
      (Reader.number_numeral 2).of_bind afterColon
    split at afterMinutes
    · next small =>
      obtain ⟨rfl, rfl⟩ := Prod.mk.inj (Option.some.inj afterMinutes)
      refine ⟨sign :: (hours ++ ':' :: minutes), by simp, ?_⟩
      refine .offset ?_ two two' small.1 small.2
      rw [not_or] at numeric
      simpa [numeric.1, numeric.2] using signed
    · exact absurd afterMinutes (Option.some_ne_none _).symm

/-- What is taken is the text of its parts, and these are such as their readers take. -/
theorem heading_takes {readYear : Reader Int} {readNumber : Reader Nat}
    {Year : List Char → Int → Prop} {Number : List Char → Nat → Prop}
    (years : readYear.Takes Year) (numbers : readNumber.Takes Number) (letters : List Char) :
    (heading readYear readNumber letters).Takes fun taken parts =>
      ∃ w : Written, taken = w.chars ∧ w.letter ∈ letters ∧ Year w.year parts.year ∧
        Number w.month parts.month ∧ Number w.day parts.day ∧ Number w.hour parts.hour ∧
        Number w.minute parts.minute ∧ Number w.second parts.second := by
  intro cs rest parts read
  unfold heading at read
  obtain ⟨year, _, _, rfl, isYear, afterYear⟩ := years.of_bind read
  obtain ⟨_, _, _, rfl, rfl, months⟩ := (Reader.expect_takes '-').of_bind afterYear
  obtain ⟨month, _, _, rfl, isMonth, afterMonth⟩ := numbers.of_bind months
  obtain ⟨_, _, _, rfl, rfl, days⟩ := (Reader.expect_takes '-').of_bind afterMonth
  obtain ⟨day, _, _, rfl, isDay, afterDay⟩ := numbers.of_bind days
  obtain ⟨_, _, letter, rfl, ⟨rfl, known⟩, hours⟩ := (Reader.oneOf_takes letters).of_bind afterDay
  obtain ⟨hour, _, _, rfl, isHour, afterHour⟩ := numbers.of_bind hours
  obtain ⟨_, _, _, rfl, rfl, minutes⟩ := (Reader.expect_takes ':').of_bind afterHour
  obtain ⟨minute, _, _, rfl, isMinute, afterMinute⟩ := numbers.of_bind minutes
  obtain ⟨_, _, _, rfl, rfl, seconds⟩ := (Reader.expect_takes ':').of_bind afterMinute
  obtain ⟨second, _, _, rfl, isSecond, done⟩ := numbers.of_bind seconds
  obtain ⟨rfl, rfl⟩ := Prod.mk.inj (Option.some.inj done)
  refine ⟨_, ?_, ⟨year, month, day, letter, hour, minute, second⟩, rfl, known, isYear, isMonth,
    isDay, isHour, isMinute, isSecond⟩
  simp only [Written.chars, List.append_assoc, List.cons_append, List.nil_append]

/-- Digits after a point are taken as long as there are any. -/
theorem fraction_sound {cs rest : List Char} {milli : Nat} (h : fraction cs = some (milli, rest)) :
    ∃ digits, cs = fractionChars digits ++ rest ∧ (∀ c ∈ digits, c.isDigit = true) ∧
      (digits ≠ [] → ∀ c ∈ rest.head?, c.isDigit = false) ∧ milli = fractionMillis digits := by
  rw [fraction] at h
  obtain ⟨_, _, point, rfl, ⟨rfl, known⟩, afterPoint⟩ := (Reader.optional_takes ['.']).of_bind h
  cases point with
  | none =>
    obtain ⟨rfl, rfl⟩ := Prod.mk.inj (Option.some.inj afterPoint)
    exact ⟨[], rfl, by simp, by simp, rfl⟩
  | some c =>
    obtain rfl := List.mem_singleton.1 (known c rfl)
    obtain ⟨digits, _, read, done⟩ := Reader.bind_eq_some_iff.1 afterPoint
    obtain ⟨rfl, nonempty, each, stops⟩ := Reader.allDigits_sound read
    obtain ⟨rfl, rfl⟩ := Prod.mk.inj (Option.some.inj done)
    obtain ⟨d, digits, rfl⟩ := List.exists_cons_of_ne_nil nonempty
    exact ⟨d :: digits, rfl, each, fun _ => stops, rfl⟩

/-- What is read in the RFC 3339 form is a local time with a zone after it. -/
theorem rfc3339_sound {cs rest : List Char} {t : Timestamp} (h : rfc3339 cs = some (t, rest)) :
    ∃ (l : LocalTime) (zone : List Char) (east : Int),
      cs = l.chars ++ (zone ++ rest) ∧ Zone zone east ∧
      ∃ here, l.timestamp? = some here ∧ here.minutesBefore? east = some t := by
  have years : (Nat.cast <$> Reader.number 4 4 : Reader Int).Takes fun digits year =>
      Text.Numeral 4 digits ∧ year = (Nat.ofDigitChars 10 digits 0 : Nat) := by
    intro cs rest year read
    rw [map_eq_pure_bind] at read
    obtain ⟨digits, _, _, rfl, ⟨four, rfl⟩, done⟩ := (Reader.number_numeral 4).of_bind read
    obtain ⟨rfl, rfl⟩ := Prod.mk.inj (Option.some.inj done)
    exact ⟨digits, rfl, four, rfl⟩
  rw [rfc3339_eq] at h
  obtain ⟨_, _, parts, rfl, ⟨w, rfl, known, ⟨four, year⟩, ⟨month, month'⟩, ⟨day, day'⟩,
    ⟨hour, hour'⟩, ⟨minute, minute'⟩, ⟨second, second'⟩⟩, afterHead⟩ :=
      (heading_takes years (Reader.number_numeral 2) _).of_bind h
  obtain ⟨milli, _, fractionRead, afterFraction⟩ := Reader.bind_eq_some_iff.1 afterHead
  obtain ⟨digits, rfl, each, -, rfl⟩ := fraction_sound fractionRead
  obtain ⟨zone, _, east, rfl, zoned, afterZone⟩ := offset_takes.of_bind afterFraction
  obtain ⟨here, _, hereRead, shiftRead⟩ := Reader.bind_eq_some_iff.1 afterZone
  obtain ⟨given, rfl⟩ := Reader.lift_eq_some_iff.1 hereRead
  obtain ⟨shifted, rfl⟩ := Reader.lift_eq_some_iff.1 shiftRead
  refine ⟨⟨w, digits, four, ⟨month, day, hour, minute, second⟩, known, each⟩, zone, east, ?_, zoned,
    here, ?_, shifted⟩
  · rw [LocalTime.chars, List.append_assoc]
  · -- the parts are the numbers that the digits stand for
    have same : parts = w.parts (Nat.ofDigitChars 10 w.year 0 : Nat) := by
      cases parts
      rw [Written.parts, ← year, ← month', ← day', ← hour', ← minute', ← second']
    rw [LocalTime.timestamp?, ← same]
    exact given

/-! ## The digits of the fraction -/

/-- The digits after the first point of a text. -/
def fractionDigits (cs : List Char) : List Char :=
  ((cs.dropWhile (· ≠ '.')).drop 1).takeWhile Char.isDigit

theorem fractionDigits_append {front digits rest : List Char} (before : '.' ∉ front)
    (after : '.' ∉ rest) (each : ∀ c ∈ digits, c.isDigit = true)
    (stops : digits ≠ [] → ∀ c ∈ rest.head?, c.isDigit = false) :
    fractionDigits (front ++ (fractionChars digits ++ rest)) = digits := by
  -- all before the first point is passed over
  have passed : ∀ cs : List Char, '.' ∉ cs → ∀ c ∈ cs, decide (c ≠ '.') = true := by
    intro cs pointless c member
    exact decide_eq_true (ne_of_mem_of_not_mem member pointless)
  unfold fractionDigits
  rw [List.dropWhile_append_of_pos (passed front before)]
  cases digits with
  | nil =>
    have none : (rest ++ []).dropWhile (· ≠ '.') = [].dropWhile (· ≠ '.') :=
      List.dropWhile_append_of_pos (passed rest after)
    rw [List.append_nil] at none
    rw [fractionChars, List.nil_append, none]
    rfl
  | cons d digits =>
    have none : rest.takeWhile Char.isDigit = [] := by
      cases rest with
      | nil => rfl
      | cons c rest => simp [stops (by simp) c rfl]
    rw [fractionChars, List.cons_append, List.dropWhile_cons_of_neg (by simp), List.drop_succ_cons,
      List.drop_zero, List.takeWhile_append_of_pos each, none, List.append_nil]

theorem Written.point_not_mem {w : Written} (year : '.' ∉ w.year) (month : '.' ∉ w.month)
    (day : '.' ∉ w.day) (letter : w.letter ≠ '.') (hour : '.' ∉ w.hour) (minute : '.' ∉ w.minute)
    (second : '.' ∉ w.second) : '.' ∉ w.chars := by
  simp [chars, year, month, day, letter.symm, hour, minute, second]

theorem point_not_mem_of_forall {p : Char → Bool} {cs : List Char} (each : ∀ c ∈ cs, p c = true)
    (other : p '.' = false) : '.' ∉ cs := by
  intro point
  rw [each _ point] at other
  exact absurd other (by decide)

theorem Zone.point_not_mem {zone : List Char} {east : Int} (zoned : Zone zone east) :
    '.' ∉ zone := by
  cases zoned with
  | utc known =>
    rintro member
    rw [← List.mem_singleton.1 member] at known
    exact absurd known (by decide)
  | @offset sign hours minutes known two two' =>
    have signed : '.' ≠ sign := by
      rintro rfl
      exact absurd known (by decide)
    simp [signed, point_not_mem_of_forall two.digit rfl, point_not_mem_of_forall two'.digit rfl]

theorem Zone.head {zone : List Char} {east : Int} (zoned : Zone zone east) :
    ∀ c ∈ zone.head?, c.isDigit = false ∧ c ≠ '.' := by
  cases zoned with
  | utc known =>
    rintro _ ⟨⟩
    simp only [List.mem_cons, List.not_mem_nil, or_false] at known
    rcases known with rfl | rfl <;> decide
  | offset known =>
    rintro _ ⟨⟩
    simp only [List.mem_cons, List.not_mem_nil, or_false] at known
    rcases known with rfl | rfl | rfl <;> decide

/-- What the numbers make is of their year and millisecond. -/
theorem Parts.timestamp?_sound {parts : Parts} {milli : Nat} {t : Timestamp}
    (h : parts.timestamp? milli = some t) : t.date.year = parts.year ∧ t.milli = milli := by
  obtain ⟨date, dated, given⟩ := Option.bind_eq_some_iff.1 h
  obtain ⟨rfl, -, -, -, milli⟩ := of?_eq_some_iff.1 given
  refine ⟨?_, milli⟩
  unfold Date.of? at dated
  split at dated
  · rw [← Option.some.inj dated]
  · exact absurd dated (by simp)

/-- Taking an offset off leaves the milliseconds, so they are those of the fraction. -/
theorem milli_of_rfc3339 {cs : List Char} {t : Timestamp} (h : rfc3339 cs = some (t, [])) :
    t.milli = fractionMillis (fractionDigits cs) := by
  obtain ⟨l, zone, east, rfl, zoned, here, given, shifted⟩ := rfc3339_sound h
  have letter : l.letter ≠ '.' := by
    intro same
    exact absurd l.letter_mem (by rw [same]; decide)
  have two := l.twoDigits
  have pointless : '.' ∉ l.toWritten.chars :=
    Written.point_not_mem (point_not_mem_of_forall l.year_numeral.digit rfl)
      (point_not_mem_of_forall two.month.digit rfl) (point_not_mem_of_forall two.day.digit rfl)
      letter (point_not_mem_of_forall two.hour.digit rfl)
      (point_not_mem_of_forall two.minute.digit rfl) (point_not_mem_of_forall two.second.digit rfl)
  rw [List.append_nil, LocalTime.chars, List.append_assoc,
    fractionDigits_append pointless zoned.point_not_mem l.fraction_digits
      fun _ c first => (zoned.head c first).1]
  rw [(minutesBefore?_eq_some_iff.1 shifted).2.2, (Parts.timestamp?_sound given).2]

theorem laxNumber_takes : laxNumber.Takes fun taken _ => '.' ∉ taken := by
  intro cs rest n read
  obtain ⟨front, _, _, rfl, blank, number⟩ := Reader.blanks_takes.of_bind read
  obtain ⟨digits, rfl, each, -, -⟩ := Reader.number_takes 1 2 number
  refine ⟨front ++ digits, (List.append_assoc ..).symm, ?_⟩
  exact List.not_mem_append (point_not_mem_of_forall blank rfl) (point_not_mem_of_forall each rfl)

theorem laxYear_takes : laxYear.Takes fun taken _ => '.' ∉ taken := by
  intro cs rest year read
  obtain ⟨front, _, _, rfl, blank, afterBlanks⟩ := Reader.blanks_takes.of_bind read
  obtain ⟨_, later, sign, rfl, ⟨rfl, known⟩, afterSign⟩ :=
    (Reader.optional_takes ['-', '+']).of_bind afterBlanks
  obtain ⟨digits, same, each⟩ :
      ∃ digits, later = digits ++ rest ∧ ∀ c ∈ digits, c.isDigit = true := by
    cases sign with
    | none =>
      obtain ⟨digits, _, _, rfl, ⟨each, -⟩, done⟩ := (Reader.number_takes 1 4).of_bind afterSign
      obtain ⟨-, rfl⟩ := Prod.mk.inj (Option.some.inj done)
      exact ⟨digits, rfl, each⟩
    | some sign =>
      obtain ⟨digits, _, number, done⟩ := Reader.bind_eq_some_iff.1 afterSign
      obtain ⟨rfl, -, each, -⟩ := Reader.allDigits_sound number
      obtain ⟨-, rfl⟩ := Prod.mk.inj (Option.some.inj done)
      exact ⟨digits, rfl, each⟩
  -- neither blanks nor a sign nor digits are a point
  have unpointed : '.' ∉ sign.toList := by
    intro point
    exact absurd (known '.' (Option.mem_toList.1 point)) (by decide)
  refine ⟨front ++ (sign.toList ++ digits), by simp only [same, List.append_assoc], ?_⟩
  exact List.not_mem_append (point_not_mem_of_forall blank rfl)
    (List.not_mem_append unpointed (point_not_mem_of_forall each rfl))

theorem milli_of_zoneless {cs : List Char} {t : Timestamp} (h : zoneless cs = some (t, [])) :
    t.milli = fractionMillis (fractionDigits cs) := by
  rw [zoneless_eq] at h
  obtain ⟨_, _, parts, rfl, ⟨w, rfl, known, year, month, day, hour, minute, second⟩, afterHead⟩ :=
    (heading_takes laxYear_takes laxNumber_takes _).of_bind h
  obtain ⟨milli, _, fractionRead, read⟩ := Reader.bind_eq_some_iff.1 afterHead
  obtain ⟨digits, rfl, each, stops, rfl⟩ := fraction_sound fractionRead
  obtain ⟨given, rfl⟩ := Reader.lift_eq_some_iff.1 read
  have letter : w.letter ≠ '.' := by
    rw [List.mem_singleton.1 known]
    decide
  rw [fractionDigits_append (Written.point_not_mem year month day letter hour minute second)
    List.not_mem_nil each stops]
  exact (Parts.timestamp?_sound given).2

theorem ofChars?_eq (cs : List Char) :
    ofChars? cs = (rfc3339.whole cs).or (zoneless.whole cs) := by
  rw [ofChars?, Option.orElse_eq_orElse, Option.orElse_eq_or]

/-- The milliseconds of a text are of its first three digits after the point, in either form. -/
theorem milli_of_ofChars? {cs : List Char} {t : Timestamp} (h : ofChars? cs = some t) :
    t.milli = fractionMillis (fractionDigits cs) := by
  rw [ofChars?_eq, Option.or_eq_some_iff] at h
  rcases h with zoned | ⟨-, unzoned⟩
  · exact milli_of_rfc3339 (Reader.whole_eq_some_iff.1 zoned)
  · exact milli_of_zoneless (Reader.whole_eq_some_iff.1 unzoned)

/-- Three digits are written of their milliseconds. -/
theorem fixedWidth_fractionMillis {digits : List Char} (each : ∀ c ∈ digits, c.isDigit = true) :
    Text.fixedWidth 10 3 (fractionMillis digits) = (digits.take 3).rightpad 3 '0' := by
  have three : Text.Numeral 3 ((digits.take 3).rightpad 3 '0') := by
    have length : ((digits.take 3).rightpad 3 '0').length = 3 := by
      rw [List.rightpad, List.length_append, List.length_replicate]
      have short := List.length_take_le 3 digits
      omega
    refine ⟨length, fun c member => ?_⟩
    rcases List.mem_append.1 member with digit | padding
    · exact each c (List.mem_of_mem_take digit)
    · rw [List.eq_of_mem_replicate padding]
      rfl
  exact three.fixedWidth_eq

theorem fractionDigits_chars (t : Timestamp) :
    fractionDigits t.chars = Text.fixedWidth 10 3 t.milli := by
  have numeral : ∀ n, '.' ∉ Text.fixedWidth 10 2 n :=
    fun n => point_not_mem_of_forall (fun _ => Text.isDigit_fixedWidth) rfl
  have year : '.' ∉ yearChars t.date.year := by
    intro point
    rcases mem_yearChars point with digit | sign
    · exact absurd digit (by decide)
    · exact absurd sign (by decide)
  have pointless : '.' ∉ t.written.chars :=
    Written.point_not_mem year (numeral _) (numeral _) (by simp [written]) (numeral _) (numeral _)
      (numeral _)
  rw [chars_eq, fractionDigits_append pointless (by decide) (fun _ => Text.isDigit_fixedWidth)]
  intro _ c first
  rw [← Option.some.inj first]
  rfl

/-- Less than a day taken off leaves the years of four digits within those of timestamps. -/
theorem exists_minutesBefore? {t : Timestamp} (year : 0 ≤ t.date.year ∧ t.date.year ≤ 9999)
    {minutes : Int} (small : -1440 < minutes ∧ minutes < 1440) :
    ∃ u, t.minutesBefore? minutes = some u := by
  let day := (t.date.dayNumber * 1440 + t.hour * 60 + t.minute - minutes) / 1440
  have hour := t.hour_lt
  have minute := t.minute_lt
  have starts : daysBeforeYear (-262143) < daysBeforeYear 0 - 1 ∧
      daysBeforeYear 10000 + 1 < daysBeforeYear 262143 := by decide
  have first := t.date.year_lt_iff 0
  have last := t.date.year_lt_iff 10000
  have shifted := (Date.ofDayNumber day).year_lt_iff (-262143)
  have shifted' := (Date.ofDayNumber day).year_lt_iff 262143
  rw [Date.dayNumber_ofDayNumber] at shifted shifted'
  have near : t.date.dayNumber - 1 ≤ day ∧ day ≤ t.date.dayNumber + 1 := by omega
  refine ⟨_, dif_pos ⟨?_, ?_, t.second_le, t.milli_lt, ?_⟩⟩
  · omega
  · omega
  · change -262143 ≤ (Date.ofDayNumber day).year ∧ (Date.ofDayNumber day).year ≤ 262142
    omega

theorem Zone.bounds {zone : List Char} {east : Int} (zoned : Zone zone east) :
    -1440 < east ∧ east < 1440 := by
  cases zoned with
  | utc => decide
  | offset _ _ _ hour_lt minute_lt =>
    split <;> omega

namespace LocalTime

theorem timestamp?_year {l : LocalTime} {t : Timestamp} (h : l.timestamp? = some t) :
    0 ≤ t.date.year ∧ t.date.year ≤ 9999 := by
  have four : Nat.ofDigitChars 10 l.year 0 < 10000 := l.year_numeral.value_lt
  rw [(Parts.timestamp?_sound h).1, Written.parts]
  dsimp only
  omega

/-- Before a zone it is read as UTC, and the offset taken off. -/
theorem ofChars?_zoned (l : LocalTime) {zone : List Char} {east : Int} (zoned : Zone zone east) :
    ofChars? (l.chars ++ zone) = l.timestamp?.bind (·.minutesBefore? east) := by
  have read : rfc3339 (l.chars ++ zone) =
      (l.timestamp?.bind (·.minutesBefore? east)).map (·, []) := by
    have zone' := zoned.offset_append []
    rw [List.append_nil] at zone'
    rw [rfc3339_append l zoned.head, Reader.bind_eq_some zone']
    cases l.timestamp? with
    | none => rfl
    | some here => exact Reader.lift_eq _ _
  have unread : zoneless.whole (l.chars ++ zone) = none := by
    have nonempty : zone ≠ [] := by
      rintro rfl
      cases zoned
    rw [Reader.whole_of_map (l.zoneless_append zoned.head), if_neg nonempty]
  rw [ofChars?_eq, Reader.whole_of_map read, if_pos rfl, unread, Option.or_none]

/-- Without a zone it is read as UTC, if the letter is a capital. -/
theorem ofChars?_chars (l : LocalTime) :
    ofChars? l.chars = if l.letter = 'T' then l.timestamp? else none := by
  have zoned : rfc3339 (l.chars ++ []) = none := by
    rw [l.rfc3339_append (by simp)]
    rfl
  have unzoned : zoneless (l.chars ++ []) = _ := l.zoneless_append (by simp)
  rw [List.append_nil] at zoned unzoned
  rw [ofChars?_eq, Reader.whole_of_map unzoned, if_pos rfl, Reader.whole, zoned]
  rfl

end LocalTime

/-! ## Reading in either form -/

/-- The text with the zone after the local time. -/
def LocalTime.text (l : LocalTime) (zone : List Char) : String := String.ofList (l.chars ++ zone)

/-- The texts in the RFC 3339 form, whatever their numbers. -/
def IsRfc3339 (s : String) : Prop :=
  ∃ (l : LocalTime) (zone : List Char) (east : Int), Zone zone east ∧ s = l.text zone

theorem parse_eq_ok_iff {s : String} {t : Timestamp} :
    parse s = .ok t ↔ ofChars? s.toList = some t := by
  unfold parse parse?
  cases ofChars? s.toList <;> simp

theorem parse_text_zulu {l : LocalTime} {t : Timestamp} :
    parse (l.text ['Z']) = .ok t ↔ l.timestamp? = some t := by
  have zulu : Zone ['Z'] 0 := .utc (by decide)
  rw [parse_eq_ok_iff, LocalTime.text, String.toList_ofList, l.ofChars?_zoned zulu]
  cases l.timestamp? with
  | none => simp
  | some here => rw [Option.bind_some, minutesBefore?_zero]

theorem parse_text_zoned {l : LocalTime} {zone : List Char} {east : Int} (zoned : Zone zone east)
    {t : Timestamp} :
    parse (l.text zone) = .ok t ↔
      ∃ u, parse (l.text ['Z']) = .ok u ∧ u.minutesBefore? east = some t := by
  rw [parse_eq_ok_iff, LocalTime.text, String.toList_ofList, l.ofChars?_zoned zoned,
    Option.bind_eq_some_iff]
  simp only [parse_text_zulu]

/-- An offset is refused only where its text is, and takes its minutes off. -/
theorem parse_offset {l : LocalTime} {zone : List Char} {east : Int} (zoned : Zone zone east) :
    ((∃ t, parse (l.text zone) = .ok t) ↔ ∃ u, parse (l.text ['Z']) = .ok u) ∧
    ∀ t u, parse (l.text zone) = .ok t → parse (l.text ['Z']) = .ok u →
      t.millis = u.millis - 60000 * east ∧ t.second = u.second := by
  simp only [parse_text_zoned zoned]
  refine ⟨⟨?_, ?_⟩, ?_⟩
  · rintro ⟨t, u, read, -⟩
    exact ⟨u, read⟩
  · rintro ⟨u, read⟩
    have year := LocalTime.timestamp?_year (parse_text_zulu.1 read)
    obtain ⟨t, shifted⟩ := exists_minutesBefore? year zoned.bounds
    exact ⟨t, u, read, shifted⟩
  · rintro t u ⟨v, read, shifted⟩ read'
    obtain rfl : v = u := by
      rw [read] at read'
      exact Except.ok.inj read'
    obtain ⟨minute, second, milli⟩ := minutesBefore?_eq_some_iff.1 shifted
    refine ⟨?_, second⟩
    rw [millis_eq, millis_eq, minute, second, milli]
    omega

/-- A zone that ends in a capital Z is UTC. -/
theorem Zone.eq_front {cs front zone : List Char} {east : Int} (zoned : Zone zone east)
    (same : cs ++ ['Z'] = front ++ zone) : cs = front := by
  cases zoned with
  | utc => exact (List.append_inj' same rfl).1
  | @offset sign hours minutes known two two' =>
    -- the last character is a digit of the minutes
    obtain ⟨n, -, rfl⟩ := two'.exists_eq
    have split : cs ++ ['Z'] = (front ++ sign :: (hours ++ ':' :: Text.fixedWidth 10 1 (n / 10))) ++
        [Nat.digitChar (n % 10)] := by
      rw [same, Text.fixedWidth]
      simp only [List.append_assoc, List.cons_append]
    have last := List.head_eq_of_cons_eq (List.append_inj' split rfl).2
    exact absurd last.symm (Nat.digitChar_ne _ (by decide))

/-- A missing zone is read as UTC. -/
theorem parse_append_zulu {s : String} {t : Timestamp} (read : parse s = .ok t)
    (zoned : IsRfc3339 (s ++ "Z")) : parse (s ++ "Z") = .ok t := by
  obtain ⟨l, zone, east, zoned, same⟩ := zoned
  have chars : s.toList = l.chars := by
    refine zoned.eq_front ?_
    have whole := congrArg String.toList same
    rw [LocalTime.text, String.toList_ofList, String.toList_append] at whole
    exact whole
  have text : s ++ "Z" = l.text ['Z'] := by
    rw [← String.toList_inj, LocalTime.text, String.toList_ofList, String.toList_append, chars]
    rfl
  rw [text, parse_text_zulu]
  rw [parse_eq_ok_iff, chars, l.ofChars?_chars] at read
  split at read
  · exact read
  · exact absurd read (by simp)

/-- The fraction is cut after three digits. -/
theorem fractionDigits_text {s : String} {t : Timestamp} (read : parse s = .ok t) :
    fractionDigits t.text.toList = ((fractionDigits s.toList).take 3).rightpad 3 '0' := by
  have each : ∀ c ∈ fractionDigits s.toList, c.isDigit = true :=
    List.all_eq_true.1 List.all_takeWhile
  rw [text, String.toList_ofList, fractionDigits_chars, milli_of_ofChars? (parse_eq_ok_iff.1 read),
    fixedWidth_fractionMillis each]

/-- **Offsets, missing zones and fractions.** A text with an offset is read where the same text in
UTC is, as many minutes earlier and in the same second of the minute. A text that lacks nothing but
its zone is read as UTC. Of every text that is read, the first three digits of the fraction are
kept, filled up with zeros. -/
theorem parse_forms :
    (∀ (l : LocalTime) {zone : List Char} {east : Int}, Zone zone east →
      ((∃ t, parse (l.text zone) = .ok t) ↔ ∃ u, parse (l.text ['Z']) = .ok u) ∧
      ∀ t u, parse (l.text zone) = .ok t → parse (l.text ['Z']) = .ok u →
        t.millis = u.millis - 60000 * east ∧ t.second = u.second) ∧
    (∀ s t, parse s = .ok t → IsRfc3339 (s ++ "Z") → parse (s ++ "Z") = .ok t) ∧
    ∀ s t, parse s = .ok t →
      fractionDigits t.text.toList = ((fractionDigits s.toList).take 3).rightpad 3 '0' :=
  ⟨fun _ => parse_offset, fun _ _ => parse_append_zulu, fun _ _ => fractionDigits_text⟩

/-- A leap second before 1970, with more digits than those of its milliseconds. -/
def earlyLeap : LocalTime where
  year := ['1', '9', '6', '9']
  month := ['1', '2']
  day := ['3', '1']
  letter := 'T'
  hour := ['2', '3']
  minute := ['5', '9']
  second := ['6', '0']
  fraction := ['9', '9', '9', '9']
  year_numeral := Text.numeral_of_all rfl rfl
  twoDigits := ⟨Text.numeral_of_all rfl rfl, Text.numeral_of_all rfl rfl,
    Text.numeral_of_all rfl rfl, Text.numeral_of_all rfl rfl, Text.numeral_of_all rfl rfl⟩
  letter_mem := capital_mem
  fraction_digits := List.all_eq_true.1 rfl

/-- It is read an hour east of UTC and in UTC, with a zone and without one. -/
theorem earlyLeap_forms :
    Zone ['+', '0', '1', ':', '0', '0'] 60 ∧
    (∃ t u, parse (earlyLeap.text ['+', '0', '1', ':', '0', '0']) = .ok t ∧
      parse (earlyLeap.text ['Z']) = .ok u ∧
      t.millis = u.millis - 60000 * 60 ∧ t.second = u.second) ∧
    IsRfc3339 ("1969-12-31T23:59:60.9999" ++ "Z") ∧
    ∃ t, parse "1969-12-31T23:59:60.9999" = .ok t ∧
      parse ("1969-12-31T23:59:60.9999" ++ "Z") = .ok t ∧
      fractionDigits t.text.toList = ['9', '9', '9'] := by
  obtain ⟨zoned, unzoned, cut⟩ := parse_forms
  have hour : Zone ['+', '0', '1', ':', '0', '0'] 60 :=
    @Zone.offset '+' ['0', '1'] ['0', '0'] (by decide) (Text.numeral_of_all rfl rfl)
      (Text.numeral_of_all rfl rfl) (by decide) (by decide)
  have layout : IsRfc3339 ("1969-12-31T23:59:60.9999" ++ "Z") :=
    ⟨earlyLeap, ['Z'], 0, .utc (by decide), rfl⟩
  refine ⟨hour, ⟨_, _, rfl, rfl, (zoned earlyLeap hour).2 _ _ rfl rfl⟩, layout, _, rfl, ?_, ?_⟩
  · exact unzoned _ _ rfl layout
  · exact (cut "1969-12-31T23:59:60.9999" _ rfl).trans rfl

end Timestamp

end Dossier
