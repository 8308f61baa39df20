import Dossier.Proofs.Literals

/-!
# Tokens of JSON

Numbers and strings are read back from what they are written as, whatever follows
them, if it does not go on with the number. For integers and strings this is so
always (`Number.stable_integer`, `readString_quoted`). A floating number is read as a
floating number (`Number.readNumber_chars`), and as itself if its own digits are
(`Number.Stable`).
-/

namespace Dossier.Json

open Text (Reader)

/-- The text does not go on with a number. -/
def Stops (rest : List Char) : Prop :=
  ∀ c, rest.head? = some c → c.isDigit = false ∧ c ∉ ['-', '+', '.', 'e', 'E']

theorem stops_nil : Stops [] := by
  rintro c ⟨⟩

theorem stops_cons {c : Char} (other : c.isDigit = false ∧ c ∉ ['-', '+', '.', 'e', 'E'])
    (rest : List Char) : Stops (c :: rest) := by
  rintro d ⟨⟩
  exact other

/-- The reader takes no notice of what follows, if that does not go on with a number. -/
def Firm {α : Type} (reader : Reader α) : Prop :=
  ∀ cs value left rest, reader cs = some (value, left) → Stops rest →
    reader (cs ++ rest) = some (value, left ++ rest)

namespace Firm

variable {α β : Type}

theorem pure (value : α) : Firm (pure value : Reader α) := by
  rintro cs _ left rest ⟨⟩ -
  rfl

theorem failure : Firm (failure : Reader α) := by
  rintro cs value left rest ⟨⟩

theorem bind {x : Reader α} {f : α → Reader β} (first : Firm x) (later : ∀ value, Firm (f value)) :
    Firm (x >>= f) := by
  intro cs result left rest read stops
  obtain ⟨⟨value, between⟩, taken, read⟩ := Option.bind_eq_some_iff.1 read
  show (x (cs ++ rest)).bind _ = _
  rw [first cs value between rest taken stops]
  exact later value between result left rest read stops

theorem ite {c : Prop} [Decidable c] {x y : Reader α} (first : Firm x) (second : Firm y) :
    Firm (if c then x else y) := by
  split
  · exact first
  · exact second

/-- Whether a sign, a point or an exponent follows is not changed by what is none of them. -/
theorem optional {choices : List Char} (among : choices ⊆ ['-', '+', '.', 'e', 'E']) :
    Firm (Reader.optional choices) := by
  intro cs value left rest read stops
  cases cs with
  | cons c cs =>
    rw [Reader.optional] at read
    rw [List.cons_append, Reader.optional]
    split at read
    · next chosen =>
      cases read
      rw [if_pos chosen]
    · next other =>
      cases read
      rw [if_neg other]
      rfl
  | nil =>
    cases read
    cases rest with
    | nil => rfl
    | cons c rest =>
      -- what follows cannot be taken for what was left out
      have other : c ∉ choices := fun chosen => (stops c rfl).2 (among chosen)
      rw [List.nil_append, Reader.optional, if_neg other]

theorem allDigits : Firm Reader.allDigits := by
  intro cs value left rest read stops
  have none : rest.takeWhile Char.isDigit = [] ∧ rest.dropWhile Char.isDigit = rest := by
    cases rest with
    | nil => exact ⟨rfl, rfl⟩
    | cons c rest =>
      have other := (stops c rfl).1
      exact ⟨List.takeWhile_cons_of_neg (by simp [other]),
        List.dropWhile_cons_of_neg (by simp [other])⟩
  have taken : (cs ++ rest).takeWhile Char.isDigit = cs.takeWhile Char.isDigit ∧
      (cs ++ rest).dropWhile Char.isDigit = cs.dropWhile Char.isDigit ++ rest := by
    clear read
    induction cs with
    | nil => exact none
    | cons c cs ih =>
      by_cases digit : c.isDigit = true
      · simp [digit, ih]
      · simp [digit]
  unfold Reader.allDigits at read ⊢
  rw [taken.1, taken.2]
  split at read
  · cases read
  · cases read
    rfl

end Firm

namespace Literal

theorem firm_wholeDigits : Firm wholeDigits :=
  .bind .allDigits fun digits => .ite (.bind .failure fun _ => .pure digits) (.pure digits)

theorem firm_fractionDigits : Firm fractionDigits := by
  refine .bind (.optional (by simp)) ?_
  rintro (_ | point)
  · exact .pure none
  · exact .bind .allDigits fun digits => .pure (some digits)

theorem firm_exponentPart : Firm exponentPart := by
  refine .bind (.optional (by simp)) ?_
  rintro (_ | mark)
  · exact .pure none
  · exact .bind (.optional (by simp)) fun sign => .bind .allDigits fun digits => .pure _

theorem firm_read : Firm read :=
  .bind (.optional (by simp)) fun _ => .bind firm_wholeDigits fun _ =>
    .bind firm_fractionDigits fun _ => .bind firm_exponentPart fun _ => .pure _

end Literal

/-! ## Numbers -/

/-- The number is read back from the text that it is written as. -/
def Number.Stable (n : Number) : Prop := readNumber n.chars = some (n, [])

instance (n : Number) : Decidable n.Stable :=
  inferInstanceAs (Decidable (readNumber n.chars = some (n, [])))

/-- The number that is read of a number's own text: of an integer itself, of a float what its
digits come to. -/
def Number.reread? : Number → Option Number
  | integer value lower upper => some (integer value lower upper)
  | float x => do
    let (literal, _) ← Literal.read x.chars
    float <$> literal.float?

/-- An integer is spelt with its sign and its digits. -/
theorem Number.chars_integer (value : Int) (lower : -9223372036854775808 ≤ value)
    (upper : value < 18446744073709551616) : (integer value lower upper).chars =
      (Literal.Spelling.integer (decide (value < 0)) value.natAbs).chars := by
  have text : (Literal.Spelling.integer (decide (value < 0)) value.natAbs).chars =
      (if decide (value < 0) then ['-'] else []) ++ Nat.toDigits 10 value.natAbs := by
    simp [Literal.Spelling.chars, Literal.Spelling.integer, Literal.Spelling.signChars,
      Literal.Spelling.fractionChars, Literal.Spelling.exponentChars]
  rw [text]
  show (toString value).toList = _
  rw [Int.toString_eq_repr, Int.repr_eq_if]
  by_cases sign : 0 ≤ value
  · have same : value.toNat = value.natAbs := by omega
    rw [if_pos sign, Nat.repr_eq_ofList_toDigits, String.toList_ofList, same,
      decide_eq_false (by omega)]
    rfl
  · have same : (-value).toNat = value.natAbs := by omega
    rw [if_neg sign, Nat.repr_eq_ofList_toDigits, String.toList_append, same,
      String.toList_ofList, String.toList_ofList, decide_eq_true (by omega)]
    rfl

theorem Number.number?_integer (value : Int) (lower : -9223372036854775808 ≤ value)
    (upper : value < 18446744073709551616) :
    (Literal.Spelling.integer (decide (value < 0)) value.natAbs).literal.number? =
      some (integer value lower upper) := by
  have digits : Nat.ofDigitChars 10 (Nat.toDigits 10 value.natAbs) 0 = value.natAbs :=
    Nat.ofDigitChars_ten_toDigits
  show Literal.number? ⟨decide (value < 0), Nat.toDigits 10 value.natAbs, none, none⟩ = _
  unfold Literal.number?
  simp only [digits, and_self, if_true]
  by_cases sign : value < 0
  · have back : -(value.natAbs : Int) = value := by omega
    simp only [decide_eq_true sign, if_true, back]
    exact dif_pos (by omega)
  · have back : (value.natAbs : Int) = value := by omega
    simp only [decide_eq_false sign, back]
    exact dif_pos (by omega)

/-- A number is spelt in one way or other, and what is read of that is what is read again. -/
theorem Number.spelling (n : Number) :
    ∃ s : Literal.Spelling, n.chars = s.chars ∧ s.literal.number? = n.reread? := by
  cases n with
  | integer value lower upper =>
    exact ⟨_, chars_integer value lower upper, number?_integer value lower upper⟩
  | float x =>
    obtain ⟨s, text, floating⟩ := x.spelling
    refine ⟨s, text.symm, ?_⟩
    rw [Literal.number?, if_neg floating, reread?, ← text, s.read_chars]
    rfl

/-- **A number is read from what it is written as**, whatever follows. -/
theorem Number.readNumber_chars (n : Number) {rest : List Char} (stops : Stops rest) :
    readNumber (n.chars ++ rest) = n.reread?.map fun m => (m, rest) := by
  obtain ⟨s, text, again⟩ := n.spelling
  have read := Literal.firm_read s.chars s.literal [] rest s.read_chars stops
  rw [text, readNumber, Reader.bind_eq_some read, again]
  cases n.reread? <;> rfl

/-- A number begins with its sign or with a digit. -/
theorem Number.head_chars (n : Number) :
    ∃ c more, n.chars = c :: more ∧ (c = '-' ∨ c.isDigit = true) := by
  obtain ⟨s, text, -⟩ := n.spelling
  rw [text]
  exact s.head_chars

theorem Number.stable_iff {n : Number} : n.Stable ↔ n.reread? = some n := by
  have read := n.readNumber_chars stops_nil
  rw [List.append_nil] at read
  unfold Stable
  rw [read]
  cases n.reread? <;> simp

/-- Integers are read back. -/
theorem Number.stable_integer (value : Int) (lower : -9223372036854775808 ≤ value)
    (upper : value < 18446744073709551616) : (integer value lower upper).Stable :=
  stable_iff.2 rfl

/-- Zero is read back with its sign. -/
theorem Number.stable_zero {x : Binary64.Finite} (zero : x.isZero = true) : (float x).Stable := by
  have mantissa : x.mantissa = 0 := by simpa [Binary64.Finite.isZero] using zero
  have shift : x.shift = 0 := x.normal.resolve_right (by omega)
  have same : x = .zero x.negative := by
    rw [Binary64.Finite.mk.injEq]
    exact ⟨rfl, mantissa, shift⟩
  have stable : ∀ negative, (float (.zero negative)).Stable := by decide +kernel
  rw [same]
  exact stable x.negative

/-! ## Strings -/

/-- A character is written as it is, as an escape of one letter, or by its code point. -/
inductive Escaped (c : Char) : List Char → Prop where
  | plain (quote : c ≠ '"') (backslash : c ≠ '\\') (printable : ¬c.toNat < 32) : Escaped c [c]
  | letter {d : Char} (stands : unescape? d = some c) (other : d ≠ 'u') : Escaped c ['\\', d]
  | point {x y z w : Char} (stands : Text.hexValue? [x, y, z, w] = some c.toNat)
    (apart : ∀ d ∈ [x, y, z, w], d ≠ '"' ∧ d ≠ '\\') : Escaped c ['\\', 'u', x, y, z, w]

theorem escaped_control {c : Char} (h : c.toNat < 32) :
    Escaped c ('\\' :: 'u' :: Text.fixedWidth 16 4 c.toNat) := by
  have stands : ∀ n < 32, Text.hexValue? (Text.fixedWidth 16 4 n) = some n := by decide
  have digits : Text.fixedWidth 16 4 c.toNat = [_, _, _, _] := rfl
  have stands := stands c.toNat h
  rw [digits] at stands ⊢
  refine .point stands ?_
  have digit : ∀ n, Nat.digitChar n ≠ '"' ∧ Nat.digitChar n ≠ '\\' :=
    fun n => ⟨Nat.digitChar_ne _ (by decide), Nat.digitChar_ne _ (by decide)⟩
  simp [digit]

theorem escaped_escape (c : Char) : Escaped c (escape c) := by
  have letter : ∀ pair ∈ [('"', '"'), ('\\', '\\'), ('b', '\x08'), ('f', '\x0c'), ('n', '\n'),
      ('r', '\r'), ('t', '\t')], Escaped pair.2 ['\\', pair.1] := by
    simp only [List.forall_mem_cons]
    exact ⟨.letter rfl (by decide), .letter rfl (by decide), .letter rfl (by decide),
      .letter rfl (by decide), .letter rfl (by decide), .letter rfl (by decide),
      .letter rfl (by decide), List.forall_mem_nil _⟩
  unfold escape
  split_ifs with quote backslash b f n r t control
  · exact quote ▸ letter ('"', '"') (by simp)
  · exact backslash ▸ letter ('\\', '\\') (by simp)
  · exact b ▸ letter ('b', '\x08') (by simp)
  · exact f ▸ letter ('f', '\x0c') (by simp)
  · exact n ▸ letter ('n', '\n') (by simp)
  · exact r ▸ letter ('r', '\r') (by simp)
  · exact t ▸ letter ('t', '\t') (by simp)
  · exact escaped_control control
  · exact .plain quote backslash control

/-- No escape closes the string. -/
theorem stringBody_escape (c : Char) {cs body rest : List Char}
    (h : stringBody cs = some (body, rest)) :
    stringBody (escape c ++ cs) = some (escape c ++ body, rest) := by
  have escaped := escaped_escape c
  generalize escape c = written at escaped ⊢
  cases escaped with
  | plain quote backslash printable => simp [stringBody, h, backslash]
  | letter stands other => simp [stringBody, h]
  | point stands apart =>
    simp only [List.forall_mem_cons] at apart
    simp [stringBody, h, apart]

/-- What a character is written as stands for its code point. -/
theorem codePoints?_escape (c : Char) (cs : List Char) :
    codePoints? (escape c ++ cs) = (codePoints? cs).map (c.toNat :: ·) := by
  have escaped := escaped_escape c
  generalize escape c = written at escaped ⊢
  cases escaped with
  | plain quote backslash printable =>
    simp [codePoints?, backslash, printable, Option.map_eq_bind, Function.comp_def]
  | letter stands other =>
    simp [codePoints?, stands, other, Option.map_eq_bind, Function.comp_def]
  | point stands apart =>
    simp [codePoints?, stands, Option.map_eq_bind, Function.comp_def]

theorem stringBody_flatMap (cs rest : List Char) :
    stringBody (cs.flatMap escape ++ '"' :: rest) = some (cs.flatMap escape, rest) := by
  induction cs with
  | nil => rfl
  | cons c cs ih =>
    rw [List.flatMap_cons, List.append_assoc]
    exact stringBody_escape c ih

theorem codePoints?_flatMap (cs : List Char) :
    codePoints? (cs.flatMap escape) = some (cs.map Char.toNat) := by
  induction cs with
  | nil => rfl
  | cons c cs ih => rw [List.flatMap_cons, codePoints?_escape, ih, Option.map_some, List.map_cons]

/-- No character is half a surrogate pair. -/
theorem not_surrogate (c : Char) :
    isHighSurrogate c.toNat = false ∧ isLowSurrogate c.toNat = false := by
  have valid : c.toNat < 0xD800 ∨ 0xDFFF < c.toNat ∧ c.toNat < 0x110000 := c.valid
  unfold isHighSurrogate isLowSurrogate
  simp only [Bool.and_eq_false_iff, decide_eq_false_iff_not]
  omega

theorem joinSurrogates?_map (cs : List Char) : joinSurrogates? (cs.map Char.toNat) = some cs := by
  induction cs with
  | nil => rfl
  | cons c cs ih =>
    obtain ⟨high, low⟩ := not_surrogate c
    cases cs with
    | nil => simp [joinSurrogates?, high, low]
    | cons d cs =>
      rw [List.map_cons] at ih
      simp [joinSurrogates?, high, low, ih]

/-- **Strings are read back**, from behind the opening quote. -/
theorem readString_quoted (s : String) (rest : List Char) :
    ∃ body, quoted s = '"' :: body ∧ readString (body ++ rest) = some (s, rest) := by
  refine ⟨_, rfl, ?_⟩
  unfold readString
  rw [List.append_assoc, List.cons_append, List.nil_append, stringBody_flatMap]
  simp [codePoints?_flatMap, joinSurrogates?_map]

end Dossier.Json
