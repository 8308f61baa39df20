import Dossier.Proofs.TimestampTrip

/-!
# The order of timestamps

Timestamps are ordered by date and time of day. Their texts come in the same order
(`Timestamp.text_order`): every part has a fixed width, and the greater comes before
the smaller. Their milliseconds do so up to leap seconds, which are counted with the
second after them (`Timestamp.millis_order`).
-/

namespace Dossier

/-- A date of an earlier year has a smaller number, and so has one of an earlier month or day. -/
theorem Date.dayNumber_lt {d e : Date}
    (earlier : d.year < e.year ∨ d.year = e.year ∧
      (d.month < e.month ∨ d.month = e.month ∧ d.day < e.day)) : d.dayNumber < e.dayNumber := by
  unfold dayNumber
  rcases earlier with year | ⟨year, month | ⟨month, day⟩⟩
  · have inYear := d.dayOfYear_lt_daysInYear
    have next := daysBeforeYear_succ d.year
    have years := daysBeforeYear_mono (Int.add_one_le_of_lt year)
    omega
  · have month_pos := d.month_pos
    have inMonth := daysOf_add_lt d.day_pred_lt (by omega : d.month - 1 < e.month - 1)
    unfold dayOfYear
    rw [year] at inMonth ⊢
    omega
  · have day_pos := d.day_pos
    unfold dayOfYear
    rw [year, month]
    omega

theorem Date.dayNumber_lt_iff {d e : Date} :
    d.dayNumber < e.dayNumber ↔ d.year < e.year ∨ d.year = e.year ∧
      (d.month < e.month ∨ d.month = e.month ∧ d.day < e.day) := by
  refine ⟨fun less => ?_, dayNumber_lt⟩
  obtain earlier | later | ⟨year, month, day⟩ :
      (d.year < e.year ∨ d.year = e.year ∧
        (d.month < e.month ∨ d.month = e.month ∧ d.day < e.day)) ∨
      (e.year < d.year ∨ e.year = d.year ∧
        (e.month < d.month ∨ e.month = d.month ∧ e.day < d.day)) ∨
      d.year = e.year ∧ d.month = e.month ∧ d.day = e.day := by omega
  · exact earlier
  · exact absurd (dayNumber_lt later) (Int.lt_asymm less)
  · unfold dayNumber dayOfYear at less
    rw [year, month, day] at less
    exact absurd less (Int.lt_irrefl _)

namespace Text

/-! ## Texts of one length -/

/-- Texts are ordered by their beginnings, if these are of one length, and then by the rest. -/
theorem append_lt_append_iff {front other rest tail : List Char}
    (same : front.length = other.length) :
    front ++ rest < other ++ tail ↔ front < other ∨ front = other ∧ rest < tail := by
  induction front generalizing other with
  | nil =>
    obtain rfl := List.length_eq_zero_iff.1 same.symm
    simp
  | cons c front ih =>
    obtain ⟨d, other, rfl⟩ := List.exists_cons_of_length_eq_add_one same.symm
    rw [List.cons_append, List.cons_append, List.cons_lt_cons_iff, List.cons_lt_cons_iff,
      ih (Nat.succ.inj same), List.cons.injEq]
    grind

theorem digitChar_lt_iff {d e : Nat} (hd : d < 10) (he : e < 10) :
    Nat.digitChar d < Nat.digitChar e ↔ d < e := by
  have digits : ∀ d < 10, ∀ e < 10, (Nat.digitChar d < Nat.digitChar e ↔ d < e) := by decide
  exact digits d hd e he

/-- Numerals of one width have different values. -/
theorem fixedWidth_inj {width m n : Nat} (hm : m < Nat.pow 10 width)
    (hn : n < Nat.pow 10 width) :
    fixedWidth 10 width m = fixedWidth 10 width n ↔ m = n := by
  refine ⟨fun same => ?_, fun same => by rw [same]⟩
  have values := congrArg (Nat.ofDigitChars 10 · 0) same
  simp only [ofDigitChars_fixedWidth] at values
  exact (Nat.mod_eq_of_lt hm).symm.trans (values.trans (Nat.mod_eq_of_lt hn))

/-- Numerals of one width are ordered as their values, by induction on the width: the digits but the
last are the numeral of the tenth. -/
theorem fixedWidth_lt_iff {width m n : Nat} (hm : m < Nat.pow 10 width)
    (hn : n < Nat.pow 10 width) :
    fixedWidth 10 width m < fixedWidth 10 width n ↔ m < n := by
  induction width generalizing m n with
  | zero =>
    have none : m = 0 ∧ n = 0 := ⟨Nat.lt_one_iff.1 hm, Nat.lt_one_iff.1 hn⟩
    rw [none.1, none.2]
    exact iff_of_false (List.lt_irrefl _) (Nat.lt_irrefl 0)
  | succ width ih =>
    have next : Nat.pow 10 (width + 1) = Nat.pow 10 width * 10 := rfl
    have higher : m / 10 < Nat.pow 10 width := by omega
    have higher' : n / 10 < Nat.pow 10 width := by omega
    rw [fixedWidth, fixedWidth, append_lt_append_iff (by simp), ih higher higher',
      fixedWidth_inj higher higher', List.cons_lt_cons_iff, digitChar_lt_iff (by omega) (by omega)]
    simp only [List.not_lt_nil, and_false, or_false]
    omega

theorem fixedWidth_append_lt_iff {width m n : Nat} (hm : m < Nat.pow 10 width)
    (hn : n < Nat.pow 10 width) (c : Char) (rest tail : List Char) :
    fixedWidth 10 width m ++ c :: rest < fixedWidth 10 width n ++ c :: tail ↔
      m < n ∨ m = n ∧ rest < tail := by
  rw [append_lt_append_iff (by simp), fixedWidth_lt_iff hm hn, fixedWidth_inj hm hn,
    List.cons_lt_cons_iff]
  simp

/-- The text in UTF-8. -/
def bytes (s : String) : List UInt8 := s.toUTF8.data.toList

/-- A text of ASCII characters has a byte for each. -/
theorem bytes_ofList {cs : List Char} (ascii : ∀ c ∈ cs, c.toNat < 128) :
    bytes (String.ofList cs) = cs.map fun c => UInt8.ofNat c.toNat := by
  rw [bytes, String.toUTF8, String.toByteArray_ofList, List.utf8Encode,
    List.toList_data_toByteArray]
  induction cs with
  | nil => rfl
  | cons c cs ih =>
    have small := ascii c List.mem_cons_self
    have one : String.utf8EncodeChar c = [UInt8.ofNat c.toNat] := if_pos (Nat.le_of_lt_succ small)
    rw [List.flatMap_cons, one, ih (List.forall_mem_cons.1 ascii).2, List.map_cons,
      List.singleton_append]

/-- ASCII texts are ordered by their bytes as by their characters. -/
theorem bytes_lt_bytes_iff {cs ds : List Char} (ascii : ∀ c ∈ cs, c.toNat < 128)
    (other : ∀ c ∈ ds, c.toNat < 128) :
    bytes (String.ofList cs) < bytes (String.ofList ds) ↔ cs < ds := by
  rw [bytes_ofList ascii, bytes_ofList other]
  induction cs generalizing ds with
  | nil => cases ds <;> simp
  | cons c cs ih =>
    cases ds with
    | nil => simp
    | cons d ds =>
      have hc := ascii c List.mem_cons_self
      have hd := other d List.mem_cons_self
      have code : (UInt8.ofNat c.toNat).toNat = c.toNat :=
        UInt8.toNat_ofNat_of_lt' (by show c.toNat < 256; omega)
      have code' : (UInt8.ofNat d.toNat).toNat = d.toNat :=
        UInt8.toNat_ofNat_of_lt' (by show d.toNat < 256; omega)
      have less : UInt8.ofNat c.toNat < UInt8.ofNat d.toNat ↔ c < d := by
        rw [UInt8.lt_iff_toNat_lt, code, code']
        exact Iff.rfl
      have same : UInt8.ofNat c.toNat = UInt8.ofNat d.toNat ↔ c = d := by
        rw [← UInt8.toNat_inj, code, code', Char.toNat_inj]
      rw [List.map_cons, List.map_cons, List.cons_lt_cons_iff, List.cons_lt_cons_iff, less, same,
        ih (List.forall_mem_cons.1 ascii).2 (List.forall_mem_cons.1 other).2]

end Text

namespace Timestamp

theorem compare_eq (a b : Timestamp) :
    compare a b =
      (compare a.date.year b.date.year).then ((compare a.date.month b.date.month).then
        ((compare a.date.day b.date.day).then ((compare a.hour b.hour).then
          ((compare a.minute b.minute).then
            ((compare a.second b.second).then (compare a.milli b.milli)))))) := rfl

/-- The order of timestamps, part by part. -/
theorem lt_iff {a b : Timestamp} :
    a < b ↔ a.date.year < b.date.year ∨ a.date.year = b.date.year ∧
      (a.date.month < b.date.month ∨ a.date.month = b.date.month ∧
      (a.date.day < b.date.day ∨ a.date.day = b.date.day ∧
      (a.hour < b.hour ∨ a.hour = b.hour ∧
      (a.minute < b.minute ∨ a.minute = b.minute ∧
      (a.second < b.second ∨ a.second = b.second ∧ a.milli < b.milli))))) := by
  show compare a b = .lt ↔ _
  rw [compare_eq]
  simp only [Ordering.then_eq_lt, Int.compare_eq_lt, Int.compare_eq_eq, Nat.compare_eq_lt,
    Nat.compare_eq_eq]

/-! ## The order of the texts -/

theorem chars_ascii (t : Timestamp) : ∀ c ∈ t.chars, c.toNat < 128 := by
  have digit : ∀ c : Char, c.isDigit = true → c.toNat < 128 := by
    intro c digit
    have bounds := Text.toNat_of_isDigit digit
    omega
  have numeral : ∀ width n, ∀ c ∈ Text.fixedWidth 10 width n, c.toNat < 128 :=
    fun _ _ c member => digit c (Text.isDigit_fixedWidth member)
  have year : ∀ c ∈ yearChars t.date.year, c.toNat < 128 := by
    intro c member
    rcases mem_yearChars member with numeric | sign
    · exact digit c numeric
    · simp only [List.mem_cons, List.not_mem_nil, or_false] at sign
      rcases sign with rfl | rfl <;> decide
  unfold chars
  simp only [List.forall_mem_append, List.forall_mem_cons]
  exact ⟨year, by decide, numeral _ _, by decide, numeral _ _, by decide, numeral _ _, by decide,
    numeral _ _, by decide, numeral _ _, by decide, numeral _ _, by decide, by simp⟩

/-- Within the years of four digits the characters are ordered as the parts. -/
theorem chars_lt_iff {a b : Timestamp} (early : 0 ≤ a.date.year ∧ a.date.year ≤ 9999)
    (late : 0 ≤ b.date.year ∧ b.date.year ≤ 9999) : a.chars < b.chars ↔ a < b := by
  have day := Nat.le_trans a.date.day_le (daysInMonth_le a.date.year a.date.month)
  have day' := Nat.le_trans b.date.day_le (daysInMonth_le b.date.year b.date.month)
  have month := a.date.month_le
  have month' := b.date.month_le
  have hour := a.hour_lt
  have hour' := b.hour_lt
  have minute := a.minute_lt
  have minute' := b.minute_lt
  have second := a.second_le
  have second' := b.second_le
  have four : a.date.year.toNat < 10000 := by omega
  have four' : b.date.year.toNat < 10000 := by omega
  have year : a.date.year.toNat < b.date.year.toNat ↔ a.date.year < b.date.year := by omega
  have year' : a.date.year.toNat = b.date.year.toNat ↔ a.date.year = b.date.year := by omega
  have two : ∀ {m n : Nat}, m < 100 → n < 100 → ∀ c rest tail,
      Text.fixedWidth 10 2 m ++ c :: rest < Text.fixedWidth 10 2 n ++ c :: tail ↔
        m < n ∨ m = n ∧ rest < tail :=
    fun hm hn => Text.fixedWidth_append_lt_iff hm hn
  rw [lt_iff, chars, chars, yearChars, yearChars, if_pos early, if_pos late]
  rw [Text.fixedWidth_append_lt_iff four four', year, year']
  rw [two (by omega) (by omega), two (by omega) (by omega), two (by omega) (by omega),
    two (by omega) (by omega), two (by omega) (by omega)]
  rw [Text.fixedWidth_append_lt_iff a.milli_lt b.milli_lt]
  simp

/-- **Texts sort as time.** Timestamps of four-digit years, leap seconds among them, come in the
order of the bytes of their texts, and different ones have different texts. -/
theorem text_order {a b : Timestamp} (early : 0 ≤ a.date.year ∧ a.date.year ≤ 9999)
    (late : 0 ≤ b.date.year ∧ b.date.year ≤ 9999) :
    (a < b ↔ Text.bytes a.text < Text.bytes b.text) ∧ (a = b ↔ a.text = b.text) := by
  refine ⟨?_, fun same => by rw [same], fun same => ?_⟩
  · rw [text, text, Text.bytes_lt_bytes_iff a.chars_ascii b.chars_ascii, chars_lt_iff early late]
  · have read := parse?_text a early
    rw [same, parse?_text b late] at read
    exact (Option.some.inj read).symm

/-- The leap second at the end of 2016. -/
def yearEnd : Timestamp :=
  { leapSecond with
    date := ⟨2016, 12, 31, leapSecond.date.month_le, by decide, by decide, by decide⟩
    hour := 23
    milli := 0
    hour_lt := by decide
    milli_lt := epoch.milli_lt
    year_bounds := by decide }

/-- The midnight after it. -/
def newYear : Timestamp :=
  { epoch with date := leapSecond.date, year_bounds := leapSecond.year_bounds }

/-- The leap second sorts before the midnight, and so does its text. -/
theorem yearEnd_order :
    (0 ≤ yearEnd.date.year ∧ yearEnd.date.year ≤ 9999) ∧
    (0 ≤ newYear.date.year ∧ newYear.date.year ≤ 9999) ∧
    yearEnd < newYear ∧ Text.bytes yearEnd.text < Text.bytes newYear.text ∧
    yearEnd ≠ newYear ∧ yearEnd.text ≠ newYear.text := by
  have early : 0 ≤ yearEnd.date.year ∧ yearEnd.date.year ≤ 9999 := by decide
  have late : 0 ≤ newYear.date.year ∧ newYear.date.year ≤ 9999 := by decide
  have before : yearEnd < newYear := rfl
  have other : yearEnd ≠ newYear := by decide
  obtain ⟨order, same⟩ := text_order early late
  exact ⟨early, late, before, order.1 before, other, mt same.2 other⟩

/-- Timestamps are ordered by minute, second and millisecond. -/
theorem lt_iff_minuteNumber {a b : Timestamp} :
    a < b ↔ a.minuteNumber < b.minuteNumber ∨ a.minuteNumber = b.minuteNumber ∧
      (a.second < b.second ∨ a.second = b.second ∧ a.milli < b.milli) := by
  have hour := a.hour_lt
  have hour' := b.hour_lt
  have minute := a.minute_lt
  have minute' := b.minute_lt
  have days := Date.dayNumber_lt_iff (d := a.date) (e := b.date)
  have days' := Date.dayNumber_lt_iff (d := b.date) (e := a.date)
  rw [lt_iff]
  unfold minuteNumber
  omega

theorem ofMillis?_eq_some_iff {millis : Int} {t : Timestamp} :
    ofMillis? millis = some t ↔ t.second < 60 ∧ t.millis = millis := by
  have hour := t.hour_lt
  have minute := t.minute_lt
  have milli := t.milli_lt
  unfold ofMillis? Timestamp.millis
  rw [of?_eq_some_iff, Date.eq_ofDayNumber_iff]
  constructor
  · rintro ⟨day, hours, minutes, seconds, millis⟩
    exact ⟨by omega, by omega⟩
  · rintro ⟨second, same⟩
    exact ⟨by omega, by omega, by omega, by omega, by omega⟩

theorem ofMillis_eq_ok_iff {millis : Int} {t : Timestamp} :
    ofMillis millis = .ok t ↔ t.second < 60 ∧ t.millis = millis := by
  rw [← ofMillis?_eq_some_iff]
  unfold ofMillis
  cases ofMillis? millis <;> simp

/-- The first lies in a leap second and the other in the second after it. -/
def LeapsTo (a b : Timestamp) : Prop :=
  a.second = 60 ∧ b.second = 0 ∧ b.minuteNumber = a.minuteNumber + 1

theorem lt_iff_millis_lt (a b : Timestamp) :
    a < b ↔ LeapsTo a b ∨ ¬LeapsTo b a ∧ a.millis < b.millis := by
  have second := a.second_le
  have second' := b.second_le
  have milli := a.milli_lt
  have milli' := b.milli_lt
  rw [lt_iff_minuteNumber, millis_eq, millis_eq]
  unfold LeapsTo
  omega

theorem millis_eq_iff {a b : Timestamp} (plain : b.second < 60) :
    b.millis = a.millis ↔ b = a ∨ LeapsTo a b ∧ b.milli = a.milli := by
  have second := a.second_le
  have milli := a.milli_lt
  have milli' := b.milli_lt
  constructor
  · intro same
    by_cases leap : a.second = 60
    · rw [millis_eq, millis_eq] at same
      unfold LeapsTo
      right
      omega
    · have back := ofMillis?_eq_some_iff.2 ⟨(by omega : a.second < 60), rfl⟩
      rw [ofMillis?_eq_some_iff.2 ⟨plain, same⟩] at back
      exact .inl (Option.some.inj back)
  · rintro (rfl | ⟨⟨leap, next, minute⟩, millis⟩)
    · rfl
    · rw [millis_eq, millis_eq, leap, next, minute, millis]
      omega

/-- **Milliseconds are ordered as timestamps**, but for a leap second and the second after it, which
have the same counts: there the leap second comes first, whatever the milliseconds. A count gives
back the timestamp that it was taken of, and that of a leap second the same millisecond of the
second after it, if there is one. -/
theorem millis_order (a b : Timestamp) :
    (a < b ↔ LeapsTo a b ∨ ¬LeapsTo b a ∧ a.millis < b.millis) ∧
    (ofMillis a.millis = .ok b ↔ a.second < 60 ∧ b = a ∨ LeapsTo a b ∧ b.milli = a.milli) := by
  refine ⟨lt_iff_millis_lt a b, ?_⟩
  rw [ofMillis_eq_ok_iff]
  constructor
  · rintro ⟨plain, same⟩
    rcases (millis_eq_iff plain).1 same with rfl | later
    · exact .inl ⟨plain, rfl⟩
    · exact .inr later
  · rintro (⟨plain, rfl⟩ | ⟨leap, milli⟩)
    · exact ⟨plain, rfl⟩
    · have plain : b.second < 60 := by
        rw [leap.2.1]
        decide
      exact ⟨plain, (millis_eq_iff plain).2 (.inr ⟨leap, milli⟩)⟩

/-- The leap second at the end of 2016 and the midnight after it have the same count, which gives
back the midnight. -/
theorem yearEnd_millis :
    parse "2016-12-31T23:59:60Z" = .ok yearEnd ∧ parse "2017-01-01T00:00:00Z" = .ok newYear ∧
      yearEnd < newYear ∧ ¬yearEnd.millis < newYear.millis ∧
      ofMillis yearEnd.millis = .ok newYear ∧ newYear ≠ yearEnd :=
  ⟨rfl, rfl, rfl, by decide, rfl, by decide⟩

end Timestamp

end Dossier
