import Dossier.Proofs.TimestampOrder

/-!
# Counts of milliseconds as text

A count of milliseconds is that of a timestamp if it leads to a year that timestamps
can lie in (`Timestamp.isSome_ofMillis?_iff`). The counts that survive being written as
a text and read back are those of the years of four digits, from the first millisecond
of year 0 to the last of year 9999, and no others (`Timestamp.millis_through_text`).
-/

namespace Dossier

/-- A numeral of so many decimal digits that has a value. -/
structure Text.Numeral.Of (width : Nat) (value : Int) (digits : List Char) : Prop
    extends Text.Numeral width digits where
  value : (Nat.ofDigitChars 10 digits 0 : Int) = value

theorem Text.Numeral.of_fixedWidth {width n : Nat} (h : n < Nat.pow 10 width) :
    Numeral.Of width n (fixedWidth 10 width n) where
  toNumeral := numeral_fixedWidth width n
  value := by rw [ofDigitChars_fixedWidth, Nat.mod_eq_of_lt h]

/-- The days of the years of four digits, by their number. -/
theorem Date.fourDigits_iff (d : Date) :
    0 ≤ d.year ∧ d.year ≤ 9999 ↔ -719528 ≤ d.dayNumber ∧ d.dayNumber ≤ 2932896 := by
  have first := d.year_lt_iff 0
  have last := d.year_lt_iff 10000
  have before : daysBeforeYear 0 = -366 := rfl
  have beyond : daysBeforeYear 10000 = 3652059 := rfl
  unfold epochOffset at first last
  omega

namespace Timestamp

/-- A text in the form `YYYY-MM-DDThh:mm:ss.sssZ`, with the numbers of the timestamp. -/
structure Standard (t : Timestamp) (s : String) : Prop where
  length : s.length = 24
  spelled : ∃ year month day hour minute second milli : List Char,
    s.toList = year ++ '-' :: (month ++ '-' :: (day ++ 'T' :: (hour ++ ':' ::
      (minute ++ ':' :: (second ++ '.' :: (milli ++ ['Z'])))))) ∧
    Text.Numeral.Of 4 t.date.year year ∧ Text.Numeral.Of 2 t.date.month month ∧
    Text.Numeral.Of 2 t.date.day day ∧ Text.Numeral.Of 2 t.hour hour ∧
    Text.Numeral.Of 2 t.minute minute ∧ Text.Numeral.Of 2 t.second second ∧
    Text.Numeral.Of 3 t.milli milli

theorem text_standard {t : Timestamp} (dated : 0 ≤ t.date.year ∧ t.date.year ≤ 9999) :
    t.Standard t.text := by
  have characters : t.text.toList = Text.fixedWidth 10 4 t.date.year.toNat ++ '-' ::
      (Text.fixedWidth 10 2 t.date.month ++ '-' :: (Text.fixedWidth 10 2 t.date.day ++ 'T' ::
        (Text.fixedWidth 10 2 t.hour ++ ':' :: (Text.fixedWidth 10 2 t.minute ++ ':' ::
          (Text.fixedWidth 10 2 t.second ++ '.' :: (Text.fixedWidth 10 3 t.milli ++ ['Z'])))))) := by
    rw [text, String.toList_ofList, chars, yearChars, if_pos dated]
  have two : ∀ {n : Nat}, n < 100 → Text.Numeral.Of 2 n (Text.fixedWidth 10 2 n) :=
    fun small => Text.Numeral.of_fixedWidth small
  have year : Text.Numeral.Of 4 t.date.year (Text.fixedWidth 10 4 t.date.year.toNat) := by
    have small : t.date.year.toNat < 10000 := by omega
    have four : Text.Numeral.Of 4 (t.date.year.toNat : Nat) _ := Text.Numeral.of_fixedWidth small
    rwa [Int.toNat_of_nonneg dated.1] at four
  -- each part has at most as many digits as it is written with
  have month := t.date.month_le
  have day := Nat.le_trans t.date.day_le (daysInMonth_le t.date.year t.date.month)
  have hour := t.hour_lt
  have minute := t.minute_lt
  have second := t.second_le
  refine ⟨?_, _, _, _, _, _, _, _, characters, year, two (by omega), two (by omega),
    two (by omega), two (by omega), two (by omega), Text.Numeral.of_fixedWidth t.milli_lt⟩
  rw [← String.length_toList, characters]
  simp

/-- There is a timestamp for a count of milliseconds if timestamps can lie in the year that it
leads to. -/
theorem isSome_ofMillis?_iff (millis : Int) :
    (ofMillis? millis).isSome ↔
      -262143 ≤ (Date.ofDayNumber (millis / 86400000)).year ∧
        (Date.ofDayNumber (millis / 86400000)).year ≤ 262142 := by
  have inDay : (millis % 86400000).toNat < 86400000 := by omega
  unfold ofMillis? of?
  dsimp only
  split
  · next parts => simp [parts.2.2.2.2]
  · next parts =>
    refine iff_of_false (by simp) fun year => parts ⟨?_, ?_, ?_, ?_, year⟩ <;> omega

/-- Within the years of four digits there is a timestamp for each count. -/
theorem exists_ofMillis {millis : Int} (low : -62167219200000 ≤ millis)
    (high : millis ≤ 253402300799999) : ∃ t, ofMillis millis = .ok t := by
  have dated := (Date.ofDayNumber (millis / 86400000)).fourDigits_iff
  rw [Date.dayNumber_ofDayNumber] at dated
  obtain ⟨t, found⟩ := Option.isSome_iff_exists.1 ((isSome_ofMillis?_iff millis).2 (by omega))
  exact ⟨t, by rw [ofMillis, found]⟩

/-- The counts of the years of four digits. -/
theorem fourDigits_iff_millis {t : Timestamp} (plain : t.second < 60) :
    0 ≤ t.date.year ∧ t.date.year ≤ 9999 ↔
      -62167219200000 ≤ t.millis ∧ t.millis ≤ 253402300799999 := by
  have hour := t.hour_lt
  have minute := t.minute_lt
  have milli := t.milli_lt
  rw [Date.fourDigits_iff, millis]
  omega

/-- **Counts of milliseconds survive text** from the first of year 0 to the last of year 9999, and
nowhere else: there is a timestamp of the count, it has the count, its text has the standard form,
and the text is read as the timestamp. -/
theorem millis_through_text (millis : Int) :
    (-62167219200000 ≤ millis ∧ millis ≤ 253402300799999) ↔
      ∃ t, ofMillis millis = .ok t ∧ t.millis = millis ∧ t.Standard t.text ∧
        parse t.text = .ok t := by
  constructor
  · rintro ⟨low, high⟩
    obtain ⟨t, made⟩ := exists_ofMillis low high
    obtain ⟨plain, rfl⟩ := ofMillis_eq_ok_iff.1 made
    have dated := (fourDigits_iff_millis plain).2 ⟨low, high⟩
    exact ⟨t, made, rfl, text_standard dated, by rw [parse, parse?_text t dated]⟩
  · rintro ⟨t, made, rfl, -, read⟩
    obtain ⟨plain, -⟩ := ofMillis_eq_ok_iff.1 made
    refine (fourDigits_iff_millis plain).1 (Decidable.byContradiction fun stray => ?_)
    -- the text of any other year is refused
    rw [parse, parse?_text_eq, if_neg stray] at read
    cases read

/-- The last millisecond of the leap day of year 0. -/
example : text <$> ofMillis (-62162035200001) = .ok "0000-02-29T23:59:59.999Z" := rfl

end Timestamp

end Dossier
