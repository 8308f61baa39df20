import Mathlib.Algebra.Group.Nat.Defs
import Dossier.Identifier.Basic

/-!
# Identifiers and their texts

The only text that is read as an identifier is the one that it is written as
(`Identifier.text_of_parse?`), and an identifier whose type has a name is read
from its text (`Identifier.parse_text`): no two hyphens adjoin in a UUID, so the
text is cut where it was joined.
-/

namespace Dossier

namespace Text

theorem hexDigit?_digitChar {d : Nat} (h : d < 16) : hexDigit? (Nat.digitChar d) = some d := by
  revert d
  decide

theorem digitChar_ne_hyphen {d : Nat} (h : d < 16) : Nat.digitChar d ≠ '-' := by
  revert d
  decide

/-- A numeral of the high digits followed by one of the low digits. -/
theorem fixedWidth_add (base high low n : Nat) :
    fixedWidth base (high + low) n =
      fixedWidth base high (n / base ^ low) ++ fixedWidth base low n := by
  induction low generalizing n with
  | zero => simp [fixedWidth]
  | succ low ih =>
    rw [← Nat.add_assoc, fixedWidth, ih, fixedWidth, List.append_assoc, Nat.div_div_eq_div_mul,
      Nat.pow_succ, Nat.mul_comm]

/-- The digits of a numeral are no hyphens. -/
theorem ne_hyphen_of_mem_fixedWidth {width n : Nat} {c : Char} (h : c ∈ fixedWidth 16 width n) :
    c ≠ '-' := by
  induction width generalizing n with
  | zero => exact absurd h List.not_mem_nil
  | succ width ih =>
    rcases List.mem_append.1 h with high | last
    · exact ih high
    · rw [List.mem_singleton.1 last]
      exact digitChar_ne_hyphen (Nat.mod_lt n (by decide))

/-- A hexadecimal numeral of fixed width has the value of `n` below the power of sixteen. -/
theorem hexValue?_fixedWidth (width n : Nat) :
    hexValue? (fixedWidth 16 width n) = some (n % 16 ^ width) := by
  unfold hexValue?
  induction width generalizing n with
  | zero => simp [fixedWidth, Nat.mod_one]
  | succ width ih =>
    rw [fixedWidth, List.foldlM_append, ih]
    simp only [Option.bind_eq_bind, Option.bind_some, List.foldlM_cons, List.foldlM_nil,
      hexDigit?_digitChar (Nat.mod_lt n (by decide : 0 < 16)), Option.map_eq_map, Option.map_some,
      Option.pure_def]
    rw [Nat.pow_succ, Nat.mul_comm (16 ^ width), Nat.mod_mul, Nat.add_comm]

end Text

/-! ## UUIDs -/

namespace Uuid

theorem ungroup?_append {width : Nat} {widths : List Nat} {group : List Char}
    (length : group.length = width) (rest : List Char) :
    ungroup? (width :: widths) (group ++ '-' :: rest) = (group ++ ·) <$> ungroup? widths rest := by
  subst length
  simp [ungroup?]

/-- The groups of a UUID are the thirty-two digits of its number. -/
theorem ungroup?_chars (u : Uuid) :
    ungroup? [8, 4, 4, 4] u.chars = some (Text.fixedWidth 16 32 u.toNat) := by
  unfold chars
  rw [ungroup?_append (Text.length_fixedWidth ..), ungroup?_append (Text.length_fixedWidth ..),
    ungroup?_append (Text.length_fixedWidth ..), ungroup?_append (Text.length_fixedWidth ..),
    ungroup?, Text.fixedWidth_add 16 8 24, Text.fixedWidth_add 16 4 20, Text.fixedWidth_add 16 4 16,
    Text.fixedWidth_add 16 4 12]
  simp only [Nat.shiftRight_eq_div_pow]
  rfl

/-- A UUID is read from the form that it is written in. -/
theorem ofChars?_chars (u : Uuid) : ofChars? u.chars = some u := by
  have bound : u.toNat % 16 ^ 32 = u.toNat := Nat.mod_eq_of_lt u.bits.isLt
  unfold ofChars? ofHyphenated?
  rw [length_chars, if_neg (by decide), if_pos rfl, ungroup?_chars, Option.bind_some, ofDigits?,
    Text.length_fixedWidth, if_pos rfl, Text.hexValue?_fixedWidth, bound]
  show some (ofNat u.toNat) = some u
  rw [ofNat, toNat, BitVec.ofNat_toNat, BitVec.setWidth_eq]

end Uuid

namespace Identifier

/-- The characters of an identifier's text. -/
theorem toList_text (id : Identifier) :
    id.text.toList = id.typeName.toList ++ '-' :: '-' :: id.uuid.chars := by
  rw [text, Uuid.text, String.toList_append, String.toList_append, String.toList_ofList,
    List.append_assoc]
  rfl

/-- What a text is cut into makes up the text. -/
theorem eq_of_cutLast {cs before after : List Char} (h : cutLast cs = some (before, after)) :
    cs = before ++ '-' :: '-' :: after := by
  induction cs generalizing before with
  | nil => exact absurd h (by simp [cutLast])
  | cons c rest ih =>
    unfold cutLast at h
    split at h
    · -- the rest is cut as well, so the cut is further on
      next found =>
      obtain ⟨rfl, rfl⟩ := Prod.mk.inj (Option.some.inj h)
      rw [ih found]
      rfl
    · split at h
      · obtain ⟨rfl, rfl⟩ := Prod.mk.inj (Option.some.inj h)
        rfl
      · exact absurd h (by simp)

/-- The characters of an identifier that is read: those of a type name, two hyphens, and those
that its UUID is written with. -/
theorem toList_of_parse {s : String} {id : Identifier} (h : parse s = .ok id) :
    s.toList = id.typeName.toList ++ '-' :: '-' :: id.uuid.chars := by
  unfold parse at h
  split at h
  · exact absurd h (by simp)
  · next typeName digits cut =>
    split at h
    · exact absurd h (by simp)
    · split at h
      · exact absurd h (by simp)
      · split at h
        · next written =>
          obtain rfl := Except.ok.inj h
          rw [eq_of_cutLast cut, String.toList_ofList, written]
        · exact absurd h (by simp)

/-- An identifier that was read is written as it was. -/
theorem text_of_parse? {s : String} {id : Identifier} (h : parse? s = some id) : id.text = s := by
  have read : parse s = .ok id := by
    unfold parse? at h
    cases parsed : parse s with
    | ok other =>
      rw [parsed] at h
      exact congrArg _ (Option.some.inj h)
    | error e =>
      rw [parsed] at h
      exact absurd h (by simp [Except.toOption])
  rw [← String.toList_inj, toList_of_parse read, toList_text]

/-- The text of an identifier that was read is read as the same. -/
theorem parse?_text {s : String} {id : Identifier} (h : parse? s = some id) :
    parse? id.text = some id := by
  rw [text_of_parse? h]
  exact h

/-! ## Reading what is written -/

/-- Characters that are no hyphens do not change whether there are two adjoining ones. -/
theorem cutLast_append_of_none {group rest : List Char} (digits : ∀ c ∈ group, c ≠ '-')
    (h : cutLast rest = none) : cutLast (group ++ rest) = none := by
  induction group with
  | nil => exact h
  | cons c group ih =>
    obtain ⟨digit, later⟩ := List.forall_mem_cons.1 digits
    rw [List.cons_append]
    unfold cutLast
    rw [ih later]
    dsimp only
    split
    · exact absurd rfl digit
    · rfl

/-- A hyphen before a group of digits makes no pair of hyphens. -/
theorem cutLast_hyphen {group rest : List Char} (digits : ∀ c ∈ group, c ≠ '-')
    (some : group ≠ []) (h : cutLast rest = none) : cutLast ('-' :: (group ++ rest)) = none := by
  obtain ⟨c, group, rfl⟩ := List.exists_cons_of_ne_nil some
  rw [cutLast, cutLast_append_of_none digits h]
  have digit : c ≠ '-' := digits c List.mem_cons_self
  simp [digit]

/-- No two hyphens adjoin in a UUID, even behind another hyphen. -/
theorem cutLast_chars (u : Uuid) : cutLast ('-' :: u.chars) = none := by
  have digits : ∀ width n, ∀ c ∈ Text.fixedWidth 16 width n, c ≠ '-' :=
    fun _ _ _ => Text.ne_hyphen_of_mem_fixedWidth
  have group : ∀ width n, Text.fixedWidth 16 (width + 1) n ≠ [] := by
    intro width n none
    have length := Text.length_fixedWidth 16 (width + 1) n
    rw [none] at length
    cases length
  have last : cutLast ('-' :: (Text.fixedWidth 16 12 u.toNat ++ [])) = none :=
    cutLast_hyphen (digits 12 _) (group 11 _) rfl
  rw [List.append_nil] at last
  unfold Uuid.chars
  exact cutLast_hyphen (digits 8 _) (group 7 _) (cutLast_hyphen (digits 4 _) (group 3 _)
    (cutLast_hyphen (digits 4 _) (group 3 _) (cutLast_hyphen (digits 4 _) (group 3 _) last)))

/-- A text is cut at a pair of hyphens that no other pair follows. -/
theorem cutLast_append {after : List Char} (h : cutLast ('-' :: after) = none)
    (before : List Char) : cutLast (before ++ '-' :: '-' :: after) = some (before, after) := by
  induction before with
  | nil => rw [List.nil_append, cutLast, h]
  | cons c before ih =>
    rw [List.cons_append]
    unfold cutLast
    rw [ih]

/-- A text with a pair of hyphens somewhere is cut somewhere. -/
theorem cutLast_ne_none (before after : List Char) :
    cutLast (before ++ '-' :: '-' :: after) ≠ none := by
  induction before with
  | nil =>
    rw [List.nil_append, cutLast]
    split <;> simp
  | cons c before ih =>
    rw [List.cons_append]
    unfold cutLast
    split
    · simp
    · next uncut => exact absurd uncut ih

/-- **An identifier is read from its text**, if its type name is not empty. -/
theorem parse_text {id : Identifier} (named : id.typeName ≠ "") : parse id.text = .ok id := by
  have nonempty : id.typeName.toList ≠ [] := by simpa using named
  rw [parse, toList_text, cutLast_append (cutLast_chars _)]
  simp only [if_neg nonempty, Uuid.ofChars?_chars, if_true, String.ofList_toList]

/-- A text is read as an identifier if it is the text of one whose type has a name. -/
theorem parse?_eq_some_iff {s : String} {id : Identifier} :
    parse? s = some id ↔ id.typeName ≠ "" ∧ s = id.text := by
  constructor
  · intro read
    refine ⟨?_, (text_of_parse? read).symm⟩
    rintro unnamed
    -- nothing before the cut is no name
    have chars : s.toList = '-' :: '-' :: id.uuid.chars := by
      rw [← text_of_parse? read, toList_text, unnamed]
      rfl
    have cut := cutLast_append (cutLast_chars id.uuid) []
    rw [List.nil_append, ← chars] at cut
    simp [parse?, parse, cut, Except.toOption] at read
  · rintro ⟨named, rfl⟩
    rw [parse?, parse_text named]
    rfl

end Identifier

end Dossier
