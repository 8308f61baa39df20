import Mathlib.Data.List.Induction
import Dossier.Proofs.Identifiers

/-!
# The grammar of identifiers

Which texts name a UUID, and which an identifier, said without their readers. A UUID
is named by thirty-two hexadecimal digits alone, in five groups, or in groups inside
braces or behind `urn:uuid:` (`Uuid.isSome_ofChars?_iff`); it is written in groups
with letters in lower case. An identifier is a name that is not empty, two hyphens and
a UUID as it is written; any other text is refused, for its shape or for naming no UUID
(`Identifier.parse_grammar`).
-/

namespace Dossier

namespace Text

/-- A hexadecimal digit whose letters are in lower case. -/
def IsLowerHex (c : Char) : Prop := ('0' ≤ c ∧ c ≤ '9') ∨ ('a' ≤ c ∧ c ≤ 'f')

/-- A hexadecimal digit, its letters in either case. -/
def IsHex (c : Char) : Prop := IsLowerHex c ∨ ('A' ≤ c ∧ c ≤ 'F')

theorem isSome_hexDigit?_iff {c : Char} : (hexDigit? c).isSome ↔ IsHex c := by
  unfold hexDigit? IsHex IsLowerHex
  split
  · next decimal => simp [decimal]
  · next decimal =>
    split
    · next lower => simp [lower]
    · next lower => split <;> simp_all

theorem isLowerHex_digitChar {d : Nat} (h : d < 16) : IsLowerHex (Nat.digitChar d) := by
  unfold IsLowerHex
  revert d
  decide

/-- A lower-case digit is what its value is written as. -/
theorem digitChar_of_hexDigit? {c : Char} {d : Nat} (lower : IsLowerHex c)
    (h : hexDigit? c = some d) : d < 16 ∧ Nat.digitChar d = c := by
  have decimal : ∀ d < 10, (Nat.digitChar d).toNat = d + 48 := by decide
  have letter : ∀ d < 16, 10 ≤ d → (Nat.digitChar d).toNat = d + 87 := by decide
  unfold hexDigit? at h
  split at h
  · next within =>
    have bounds : 48 ≤ c.toNat ∧ c.toNat ≤ 57 := within
    obtain rfl := Option.some.inj h
    refine ⟨by omega, Char.toNat_inj.1 ?_⟩
    rw [decimal _ (by omega)]
    omega
  · next apart =>
    have within := lower.resolve_left apart
    have bounds : 97 ≤ c.toNat ∧ c.toNat ≤ 102 := within
    rw [if_pos within] at h
    obtain rfl := Option.some.inj h
    refine ⟨by omega, Char.toNat_inj.1 ?_⟩
    rw [letter _ (by omega) (by omega)]
    omega

theorem isLowerHex_of_mem_fixedWidth {width n : Nat} {c : Char} (h : c ∈ fixedWidth 16 width n) :
    IsLowerHex c := by
  induction width generalizing n with
  | zero => exact absurd h List.not_mem_nil
  | succ width ih =>
    rcases List.mem_append.1 h with high | last
    · exact ih high
    · rw [List.mem_singleton.1 last]
      exact isLowerHex_digitChar (Nat.mod_lt n (by decide))

/-- A numeral with one digit more at its end. -/
theorem hexValue?_concat (cs : List Char) (c : Char) :
    hexValue? (cs ++ [c]) =
      (hexValue? cs).bind fun n => (hexDigit? c).map (16 * n + ·) := by
  unfold hexValue?
  rw [List.foldlM_append]
  simp only [List.foldlM_cons, List.foldlM_nil, bind_pure, Option.map_eq_map, Option.bind_eq_bind]

theorem isSome_hexValue?_iff {cs : List Char} : (hexValue? cs).isSome ↔ ∀ c ∈ cs, IsHex c := by
  induction cs using List.reverseRecOn with
  | nil => simp [hexValue?]
  | append_singleton cs c ih =>
    rw [List.forall_mem_append, ← ih, List.forall_mem_singleton, ← isSome_hexDigit?_iff,
      hexValue?_concat]
    cases hexValue? cs <;> simp

/-- A numeral in lower case is the one that its value is written as. -/
theorem fixedWidth_of_hexValue? {cs : List Char} (lower : ∀ c ∈ cs, IsLowerHex c) {n : Nat}
    (h : hexValue? cs = some n) : fixedWidth 16 cs.length n = cs := by
  induction cs using List.reverseRecOn generalizing n with
  | nil => rfl
  | append_singleton cs c ih =>
    rw [List.forall_mem_append, List.forall_mem_singleton] at lower
    rw [hexValue?_concat] at h
    obtain ⟨high, read, rest⟩ := Option.bind_eq_some_iff.1 h
    obtain ⟨d, digit, rfl⟩ := Option.map_eq_some_iff.1 rest
    obtain ⟨small, written⟩ := digitChar_of_hexDigit? lower.2 digit
    have front : (16 * high + d) / 16 = high := by omega
    have last : (16 * high + d) % 16 = d := by omega
    rw [List.length_append, List.length_singleton, fixedWidth, front, last, ih lower.1 read,
      written]

end Text

/-! ## The forms of a UUID -/

namespace Uuid

/-- Groups of characters of a sort, of the widths given, joined by hyphens. -/
inductive Grouped (P : Char → Prop) : (widths : List Nat) → List Char → Prop where
  | last {width : Nat} {group : List Char} (length : group.length = width)
    (each : ∀ c ∈ group, P c) : Grouped P [width] group
  | next {width : Nat} {widths : List Nat} {group rest : List Char}
    (length : group.length = width) (each : ∀ c ∈ group, P c) (later : Grouped P widths rest) :
    Grouped P (width :: widths) (group ++ '-' :: rest)

/-- The hyphenated form: groups of 8, 4, 4, 4 and 12 digits of a sort. -/
def Hyphenated (P : Char → Prop) (cs : List Char) : Prop := Grouped P [8, 4, 4, 4, 12] cs

/-- The texts that name a UUID, their letters in either case. -/
inductive Spelt : List Char → Prop where
  /-- The digits alone. -/
  | simple {cs : List Char} (length : cs.length = 32) (digits : ∀ c ∈ cs, Text.IsHex c) : Spelt cs
  | hyphenated {cs : List Char} (groups : Hyphenated Text.IsHex cs) : Spelt cs
  | braced {cs : List Char} (groups : Hyphenated Text.IsHex cs) : Spelt ('{' :: (cs ++ ['}']))
  /-- A resource name. -/
  | urn {scheme cs : List Char} (named : scheme.map Char.toLower = "urn:uuid:".toList)
    (groups : Hyphenated Text.IsHex cs) : Spelt (scheme ++ cs)

/-- The groups and the hyphens between them make up the length. -/
theorem Grouped.length_eq {P : Char → Prop} {widths : List Nat} {cs : List Char}
    (h : Grouped P widths cs) : cs.length + 1 = widths.foldr (· + 1 + ·) 0 := by
  induction h with
  | last length each => simp [length]
  | next length each _ ih =>
    rw [List.foldr_cons, ← ih, List.length_append, List.length_cons, length]
    omega

theorem Hyphenated.length_eq {P : Char → Prop} {cs : List Char} (h : Hyphenated P cs) :
    cs.length = 36 :=
  Nat.succ.inj (Grouped.length_eq h)

/-- A text whose first group can be taken off consists of it, a hyphen, and what can be taken apart
further. -/
theorem ungroup?_eq_some {width : Nat} {widths : List Nat} {cs digits : List Char}
    (h : ungroup? (width :: widths) cs = some digits) :
    ∃ group rest later, group.length = width ∧ cs = group ++ '-' :: rest ∧
      ungroup? widths rest = some later ∧ digits = group ++ later := by
  rw [ungroup?] at h
  split at h
  · next rest found =>
    obtain ⟨later, taken, rfl⟩ := Option.map_eq_some_iff.1 h
    have long : width < cs.length := by
      by_contra short
      rw [List.drop_eq_nil_of_le (Nat.le_of_not_lt short)] at found
      cases found
    refine ⟨cs.take width, rest, later, List.length_take_of_le (Nat.le_of_lt long), ?_, taken, rfl⟩
    rw [← found, List.take_append_drop]
  · cases h

/-- A text in groups is one that taking off the groups but the last leaves digits of, as many as the
widths say. -/
theorem grouped_iff {P : Char → Prop} {widths : List Nat} {last : Nat} {cs : List Char} :
    Grouped P (widths ++ [last]) cs ↔ ∃ digits, ungroup? widths cs = some digits ∧
      digits.length = widths.foldr (· + ·) last ∧ ∀ c ∈ digits, P c := by
  induction widths generalizing cs with
  | nil =>
    constructor
    · intro h
      cases h with
      | last length each => exact ⟨cs, rfl, length, each⟩
      | next _ _ later => cases later
    · rintro ⟨digits, same, length, each⟩
      obtain rfl := Option.some.inj same
      exact .last length each
  | cons width widths ih =>
    constructor
    · intro h
      rw [List.cons_append] at h
      -- the group that comes first is not the last, since one width is left over
      generalize whole : width :: (widths ++ [last]) = all at h
      cases h with
      | last => simp at whole
      | next length each later =>
        obtain ⟨rfl, rfl⟩ := List.cons.inj whole
        obtain ⟨digits, taken, total, eachLater⟩ := ih.1 later
        refine ⟨_ ++ digits, ?_, ?_, List.forall_mem_append.2 ⟨each, eachLater⟩⟩
        · rw [ungroup?_append length, taken]
          rfl
        · rw [List.length_append, length, total, List.foldr_cons]
    · rintro ⟨digits, taken, total, each⟩
      obtain ⟨group, rest, later, length, rfl, takenLater, rfl⟩ := ungroup?_eq_some taken
      rw [List.length_append, length, List.foldr_cons] at total
      obtain ⟨eachGroup, eachLater⟩ := List.forall_mem_append.1 each
      exact .next length eachGroup (ih.2 ⟨later, takenLater, Nat.add_left_cancel total, eachLater⟩)

theorem hyphenated_iff {P : Char → Prop} {cs : List Char} :
    Hyphenated P cs ↔ ∃ digits, ungroup? [8, 4, 4, 4] cs = some digits ∧ digits.length = 32 ∧
      ∀ c ∈ digits, P c :=
  @grouped_iff P [8, 4, 4, 4] 12 cs

/-- The digits of the groups tell the whole text. -/
theorem ungroup?_injective {widths : List Nat} {cs ds digits : List Char}
    (h : ungroup? widths cs = some digits) (other : ungroup? widths ds = some digits) : cs = ds := by
  induction widths generalizing cs ds digits with
  | nil => exact (Option.some.inj h).trans (Option.some.inj other).symm
  | cons width widths ih =>
    obtain ⟨group, rest, later, length, rfl, taken, rfl⟩ := ungroup?_eq_some h
    obtain ⟨group', rest', later', length', rfl, taken', same⟩ := ungroup?_eq_some other
    obtain ⟨rfl, rfl⟩ := List.append_inj same (length.trans length'.symm)
    rw [ih taken taken']

theorem isSome_ofDigits?_iff {cs : List Char} :
    (ofDigits? cs).isSome ↔ cs.length = 32 ∧ ∀ c ∈ cs, Text.IsHex c := by
  rw [← Text.isSome_hexValue?_iff, ofDigits?]
  split
  · next length => simp [length]
  · next length => simp [length]

theorem isSome_ofHyphenated?_iff {cs : List Char} :
    (ofHyphenated? cs).isSome ↔ Hyphenated Text.IsHex cs := by
  rw [hyphenated_iff, ofHyphenated?]
  cases ungroup? [8, 4, 4, 4] cs with
  | none => simp
  | some digits => simp [isSome_ofDigits?_iff]

theorem unwrap?_braced {cs : List Char} (length : cs.length = 36) :
    unwrap? ('{' :: (cs ++ ['}'])) = some cs := by
  have whole : ('{' :: (cs ++ ['}'])).length = 38 := by simp [length]
  have last : ('{' :: (cs ++ ['}'])).getLast? = some '}' := by
    rw [← List.cons_append, List.getLast?_append, List.getLast?_singleton, Option.some_or]
  rw [unwrap?, if_pos ⟨whole, rfl, last⟩, List.tail_cons, List.take_append_of_le_length (by omega),
    List.take_of_length_le (by omega)]

theorem unwrap?_urn {scheme cs : List Char}
    (named : scheme.map Char.toLower = "urn:uuid:".toList) (length : cs.length = 36) :
    unwrap? (scheme ++ cs) = some cs := by
  have nine : scheme.length = 9 := by
    rw [← List.length_map Char.toLower, named]
    rfl
  have whole : (scheme ++ cs).length = 45 := by rw [List.length_append, nine, length]
  rw [unwrap?, if_neg (fun braced => by omega), List.take_left' nine, List.drop_left' nine,
    if_pos ⟨whole, named⟩]

/-- What is inside the braces or behind the name. -/
theorem unwrap?_eq_some {cs inner : List Char} (h : unwrap? cs = some inner) :
    cs = '{' :: (inner ++ ['}']) ∨
      ∃ scheme, scheme.map Char.toLower = "urn:uuid:".toList ∧ cs = scheme ++ inner := by
  unfold unwrap? at h
  split at h
  · next braced =>
    left
    -- thirty-eight characters between which the hyphenated form fits
    obtain ⟨length, first, last⟩ := braced
    obtain ⟨tail, rfl⟩ := List.head?_eq_some_iff.1 first
    obtain rfl := Option.some.inj h
    obtain ⟨front, whole⟩ := List.getLast?_eq_some_iff.1 last
    rcases front with _ | ⟨c, front⟩
    · rw [whole] at length
      cases length
    · have same : tail = front ++ ['}'] := (List.cons.inj whole).2
      subst same
      have inside : front.length = 36 := by simpa using length
      rw [List.tail_cons, List.take_left' inside]
  · split at h
    · next named =>
      obtain rfl := Option.some.inj h
      exact .inr ⟨cs.take 9, named.2, (List.take_append_drop 9 cs).symm⟩
    · cases h

/-- **The texts of UUIDs** are those in one of the four forms. -/
theorem isSome_ofChars?_iff {cs : List Char} : (ofChars? cs).isSome ↔ Spelt cs := by
  constructor
  · intro h
    unfold ofChars? at h
    split at h
    · obtain ⟨length, digits⟩ := isSome_ofDigits?_iff.1 h
      exact .simple length digits
    · split at h
      · exact .hyphenated (isSome_ofHyphenated?_iff.1 h)
      · cases unwrapped : unwrap? cs with
        | none => simp [unwrapped] at h
        | some inner =>
          rw [unwrapped, Option.bind_some] at h
          have groups := isSome_ofHyphenated?_iff.1 h
          rcases unwrap?_eq_some unwrapped with rfl | ⟨scheme, named, rfl⟩
          · exact .braced groups
          · exact .urn named groups
  · intro h
    cases h with
    | simple length digits =>
      rw [ofChars?, if_pos length]
      exact isSome_ofDigits?_iff.2 ⟨length, digits⟩
    | hyphenated groups =>
      -- each form has a length of its own, by which it is told
      have length := groups.length_eq
      rw [ofChars?, if_neg (by omega), if_pos length]
      exact isSome_ofHyphenated?_iff.2 groups
    | @braced cs groups =>
      have length : ('{' :: (cs ++ ['}'])).length = 38 := by simp [groups.length_eq]
      rw [ofChars?, if_neg (by omega), if_neg (by omega), unwrap?_braced groups.length_eq]
      exact isSome_ofHyphenated?_iff.2 groups
    | @urn scheme cs named groups =>
      have nine : scheme.length = 9 := by
        rw [← List.length_map Char.toLower, named]
        rfl
      have length : (scheme ++ cs).length = 45 := by
        rw [List.length_append, nine, groups.length_eq]
      rw [ofChars?, if_neg (by omega), if_neg (by omega), unwrap?_urn named groups.length_eq]
      exact isSome_ofHyphenated?_iff.2 groups

/-- A UUID is written in its hyphenated form, in lower case. -/
theorem hyphenated_chars (u : Uuid) : Hyphenated Text.IsLowerHex u.chars :=
  hyphenated_iff.2 ⟨_, ungroup?_chars u, Text.length_fixedWidth .., fun _ =>
    Text.isLowerHex_of_mem_fixedWidth⟩

/-- A text in hyphenated form and in lower case is what some UUID is written as. -/
theorem exists_chars_eq {cs : List Char} (h : Hyphenated Text.IsLowerHex cs) :
    ∃ u : Uuid, u.chars = cs := by
  obtain ⟨digits, taken, length, lower⟩ := hyphenated_iff.1 h
  obtain ⟨n, read⟩ := Option.isSome_iff_exists.1
    (Text.isSome_hexValue?_iff.2 fun c member => .inl (lower c member))
  have written := Text.fixedWidth_of_hexValue? lower read
  rw [length] at written
  -- the value is written with as many digits, so it is below the power of sixteen
  have again := Text.hexValue?_fixedWidth 32 n
  rw [written, read] at again
  have bound : n % 2 ^ 128 = n := (Option.some.inj again).symm
  have value : (ofNat n).toNat = n := by
    rw [ofNat, toNat, BitVec.toNat_ofNat, bound]
  refine ⟨ofNat n, ungroup?_injective ?_ taken⟩
  rw [ungroup?_chars, value, written]

end Uuid

/-! ## Names and UUIDs -/

namespace Identifier

/-- The text is a name and a part joined by two hyphens, and no two hyphens adjoin further on. -/
structure Cut (s name part : String) : Prop where
  joined : s = name ++ separator ++ part
  last : ∀ before after : String, s = before ++ separator ++ after →
    before.toList.length ≤ name.toList.length

theorem toList_joined (name part : String) :
    (name ++ separator ++ part).toList = name.toList ++ '-' :: '-' :: part.toList := by
  rw [String.toList_append, String.toList_append, List.append_assoc]
  rfl

/-- No pair of hyphens is further on than that at which a text is cut. -/
theorem length_le_of_cutLast {cs name part before after : List Char}
    (cut : cutLast cs = some (name, part)) (h : cs = before ++ '-' :: '-' :: after) :
    before.length ≤ name.length := by
  induction cs generalizing name before with
  | nil => simp at h
  | cons c rest ih =>
    cases before with
    | nil => exact Nat.zero_le _
    | cons d before =>
      obtain ⟨rfl, later⟩ := List.cons.inj h
      unfold cutLast at cut
      split at cut
      · next found =>
        obtain ⟨rfl, rfl⟩ := Prod.mk.inj (Option.some.inj cut)
        exact Nat.succ_le_succ (ih found later)
      · next uncut =>
        rw [later] at uncut
        exact absurd uncut (cutLast_ne_none before after)

theorem cutLast_eq_some_iff {s name part : String} :
    cutLast s.toList = some (name.toList, part.toList) ↔ Cut s name part := by
  constructor
  · intro cut
    refine ⟨?_, fun before after joined => ?_⟩
    · rw [← String.toList_inj, toList_joined, eq_of_cutLast cut]
    · exact length_le_of_cutLast cut (joined ▸ toList_joined before after)
  · rintro ⟨joined, last⟩
    have whole : s.toList = name.toList ++ '-' :: '-' :: part.toList := joined ▸ toList_joined ..
    cases cut : cutLast s.toList with
    | none =>
      rw [whole] at cut
      exact absurd cut (cutLast_ne_none _ _)
    | some found =>
      -- the cut is neither further on nor before
      obtain ⟨front, back⟩ := found
      have split := eq_of_cutLast cut
      have later := length_le_of_cutLast cut whole
      have before := last (String.ofList front) (String.ofList back) (by
        rw [← String.toList_inj, toList_joined, String.toList_ofList, String.toList_ofList, split])
      rw [String.toList_ofList] at before
      obtain ⟨rfl, same⟩ := List.append_inj (split.symm.trans whole) (Nat.le_antisymm before later)
      simp only [List.cons.injEq, true_and] at same
      rw [same]

theorem cutLast_eq_none_iff {s : String} :
    cutLast s.toList = none ↔ ∀ name part, s ≠ name ++ separator ++ part := by
  constructor
  · rintro uncut name part rfl
    rw [toList_joined] at uncut
    exact cutLast_ne_none _ _ uncut
  · intro unjoined
    cases cut : cutLast s.toList with
    | none => rfl
    | some found =>
      refine absurd ?_ (unjoined (String.ofList found.1) (String.ofList found.2))
      rw [← String.toList_inj, toList_joined, String.toList_ofList, String.toList_ofList,
        eq_of_cutLast cut]

theorem parse_of_unjoined {s : String} (unjoined : ∀ name part, s ≠ name ++ separator ++ part) :
    parse s = .error (.identifier s) := by
  rw [parse, cutLast_eq_none_iff.2 unjoined]

theorem parse_of_cut {s name part : String} (cut : Cut s name part) :
    parse s =
      if name = "" then .error (.identifier s)
      else
        match Uuid.ofChars? part.toList with
        | none => .error (.uuid part)
        | some uuid =>
          if uuid.text = part then .ok ⟨name, uuid⟩ else .error (.identifier s) := by
  have unnamed : name.toList = [] ↔ name = "" := by rw [← String.toList_inj]; rfl
  have written : ∀ uuid : Uuid, uuid.chars = part.toList ↔ uuid.text = part := by
    intro uuid
    rw [← String.toList_inj, Uuid.text, String.toList_ofList]
  rw [parse, cutLast_eq_some_iff.2 cut]
  by_cases empty : name = ""
  · rw [if_pos empty]
    exact if_pos (unnamed.2 empty)
  · simp only [mt unnamed.1 empty, empty, if_false, String.ofList_toList]
    cases Uuid.ofChars? part.toList with
    | none => rfl
    | some uuid => simp only [written]

/-- A text is joined nowhere or cut somewhere. -/
theorem unjoined_or_cut (s : String) :
    (∀ name part, s ≠ name ++ separator ++ part) ∨ ∃ name part, Cut s name part := by
  cases cut : cutLast s.toList with
  | none => exact .inl (cutLast_eq_none_iff.1 cut)
  | some found =>
    refine .inr ⟨String.ofList found.1, String.ofList found.2, cutLast_eq_some_iff.1 ?_⟩
    rw [String.toList_ofList, String.toList_ofList, cut]

theorem parse_eq_ok_iff {s : String} {id : Identifier} :
    parse s = .ok id ↔ id.typeName ≠ "" ∧ s = id.text := by
  rw [← parse?_eq_some_iff, parse?]
  cases parse s <;> simp [Except.toOption]

/-- Of the forms of a UUID only the hyphenated one in lower case is the one it is written in. -/
theorem text_eq_iff {uuid : Uuid} {part : String} (read : Uuid.ofChars? part.toList = some uuid) :
    uuid.text = part ↔ Uuid.Hyphenated Text.IsLowerHex part.toList := by
  constructor
  · rintro rfl
    rw [Uuid.text, String.toList_ofList]
    exact uuid.hyphenated_chars
  · intro lower
    obtain ⟨other, chars⟩ := Uuid.exists_chars_eq lower
    rw [← chars, Uuid.ofChars?_chars] at read
    obtain rfl := Option.some.inj read
    rw [Uuid.text, chars, String.ofList_toList]

/-- A name and a UUID as it is written are read as what they were joined from. -/
theorem parse_joined {s name part : String} (named : name ≠ "")
    (lower : Uuid.Hyphenated Text.IsLowerHex part.toList) (joined : s = name ++ separator ++ part) :
    ∃ uuid : Uuid, uuid.text = part ∧ parse s = .ok ⟨name, uuid⟩ := by
  obtain ⟨uuid, chars⟩ := Uuid.exists_chars_eq lower
  have written : uuid.text = part := by rw [Uuid.text, chars, String.ofList_toList]
  refine ⟨uuid, written, ?_⟩
  rw [joined, ← written]
  exact @parse_text ⟨name, uuid⟩ named

/-- A text is refused for its shape if it is joined nowhere, has no name, or names its UUID in
another form than the one it is written in. -/
theorem parse_eq_identifier_iff {s : String} :
    parse s = .error (.identifier s) ↔
      (∀ name part, s ≠ name ++ separator ++ part) ∨ (∃ part, Cut s "" part) ∨
        ∃ name part, Cut s name part ∧ Uuid.Spelt part.toList ∧
          ¬Uuid.Hyphenated Text.IsLowerHex part.toList := by
  constructor
  · intro refused
    rcases unjoined_or_cut s with unjoined | ⟨name, part, cut⟩
    · exact .inl unjoined
    · right
      rw [parse_of_cut cut] at refused
      by_cases named : name = ""
      · exact .inl ⟨part, named ▸ cut⟩
      · rw [if_neg named] at refused
        split at refused
        · cases refused
        · next uuid read =>
          -- a UUID was read, so what is wrong is how it is written
          have spelt := Uuid.isSome_ofChars?_iff.1 (Option.isSome_of_eq_some read)
          refine .inr ⟨name, part, cut, spelt, fun lower => ?_⟩
          rw [if_pos ((text_eq_iff read).2 lower)] at refused
          cases refused
  · rintro (unjoined | ⟨part, cut⟩ | ⟨name, part, cut, spelt, unlike⟩)
    · exact parse_of_unjoined unjoined
    · rw [parse_of_cut cut, if_pos rfl]
    · obtain ⟨uuid, read⟩ := Option.isSome_iff_exists.1 (Uuid.isSome_ofChars?_iff.2 spelt)
      have other := mt (text_eq_iff read).1 unlike
      simp only [parse_of_cut cut, read, other, if_false, ite_self]

/-- A text that is refused otherwise has a name, and behind it what is in no form of a UUID. -/
theorem parse_eq_other_iff {s : String} {error : FormatError} :
    parse s = .error error ∧ error ≠ .identifier s ↔
      ∃ name part, name ≠ "" ∧ Cut s name part ∧ ¬Uuid.Spelt part.toList ∧
        error = .uuid part := by
  constructor
  · rintro ⟨refused, other⟩
    rcases unjoined_or_cut s with unjoined | ⟨name, part, cut⟩
    · rw [parse_of_unjoined unjoined] at refused
      exact absurd (Except.error.inj refused).symm other
    · rw [parse_of_cut cut] at refused
      by_cases named : name = ""
      · rw [if_pos named] at refused
        exact absurd (Except.error.inj refused).symm other
      · rw [if_neg named] at refused
        split at refused
        · next unread =>
          refine ⟨name, part, named, cut, fun spelt => ?_, (Except.error.inj refused).symm⟩
          simpa [unread] using Uuid.isSome_ofChars?_iff.2 spelt
        · split at refused
          · cases refused
          · exact absurd (Except.error.inj refused).symm other
  · rintro ⟨name, part, named, cut, unlike, rfl⟩
    have unread : Uuid.ofChars? part.toList = none :=
      Option.not_isSome_iff_eq_none.1 (mt Uuid.isSome_ofChars?_iff.1 unlike)
    rw [parse_of_cut cut, if_neg named, unread]
    exact ⟨rfl, by simp⟩

/-- **The grammar of identifiers.** A text is read as an identifier exactly if it is a name that is
not empty, of any characters, joined by two hyphens to a UUID in its hyphenated form and in lower
case; the identifier has that name and that UUID, and is written as the text. An identifier is read
from its own text exactly if its type has a name. A text is refused as malformed if it is joined
nowhere, if its name is empty, or if the part behind its last two hyphens is a UUID in another form,
and otherwise because that part is none. -/
theorem parse_grammar (s : String) (id : Identifier) :
    ((∃ read, parse s = .ok read) ↔
      ∃ name part, name ≠ "" ∧ Uuid.Hyphenated Text.IsLowerHex part.toList ∧
        s = name ++ separator ++ part) ∧
    (∀ name part, name ≠ "" → Uuid.Hyphenated Text.IsLowerHex part.toList →
      s = name ++ separator ++ part →
        ∃ uuid : Uuid, uuid.text = part ∧ parse s = .ok ⟨name, uuid⟩) ∧
    (∀ read, parse s = .ok read → read.text = s) ∧
    (parse id.text = .ok id ↔ id.typeName ≠ "") ∧
    (parse s = .error (.identifier s) ↔
      (∀ name part, s ≠ name ++ separator ++ part) ∨ (∃ part, Cut s "" part) ∨
        ∃ name part, Cut s name part ∧ Uuid.Spelt part.toList ∧
          ¬Uuid.Hyphenated Text.IsLowerHex part.toList) ∧
    ∀ error, parse s = .error error ∧ error ≠ .identifier s ↔
      ∃ name part, name ≠ "" ∧ Cut s name part ∧ ¬Uuid.Spelt part.toList ∧
        error = .uuid part := by
  refine ⟨⟨?_, ?_⟩, fun _ _ => parse_joined, ?_, ?_, parse_eq_identifier_iff,
    fun _ => parse_eq_other_iff⟩
  · rintro ⟨read, parsed⟩
    obtain ⟨named, rfl⟩ := parse_eq_ok_iff.1 parsed
    refine ⟨read.typeName, read.uuid.text, named, ?_, rfl⟩
    rw [Uuid.text, String.toList_ofList]
    exact read.uuid.hyphenated_chars
  · rintro ⟨name, part, named, lower, joined⟩
    obtain ⟨uuid, -, parsed⟩ := parse_joined named lower joined
    exact ⟨_, parsed⟩
  · intro read parsed
    exact (parse_eq_ok_iff.1 parsed).2.symm
  · exact parse_eq_ok_iff.trans (and_iff_left rfl)

/-- Of three hyphens the first belongs to the name. -/
example : parse "a---00000000-0000-4000-8000-000000000001" =
    .ok ⟨"a-", Uuid.ofNat 0x0000000000004000_8000000000000001⟩ := by
  decide +kernel

end Identifier

end Dossier
