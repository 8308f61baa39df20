import Dossier.Text.Digits

/-!
# UUIDs

A UUID is a 128-bit number. It is written in one form, thirty-two lower-case
hexadecimal digits in five groups joined by hyphens, and read in four: that
form, the digits alone, the hyphenated form in braces, and the hyphenated form
after `urn:uuid:`. Readers take letters of either case.
-/

namespace Dossier

structure Uuid where
  bits : BitVec 128
  deriving DecidableEq, Repr

namespace Uuid

/-- The UUID with the number `n`. -/
def ofNat (n : Nat) : Uuid := ⟨BitVec.ofNat 128 n⟩

def toNat (u : Uuid) : Nat := u.bits.toNat

/-- The hyphenated form: groups of 8, 4, 4, 4 and 12 digits. -/
def chars (u : Uuid) : List Char :=
  Text.fixedWidth 16 8 (u.toNat >>> 96) ++ '-' ::
  (Text.fixedWidth 16 4 (u.toNat >>> 80) ++ '-' ::
  (Text.fixedWidth 16 4 (u.toNat >>> 64) ++ '-' ::
  (Text.fixedWidth 16 4 (u.toNat >>> 48) ++ '-' ::
  Text.fixedWidth 16 12 u.toNat)))

def text (u : Uuid) : String := String.ofList u.chars

@[simp] theorem length_chars (u : Uuid) : u.chars.length = 36 := by
  simp [chars]

/-- The version, from the top half of the seventh byte. -/
def version (u : Uuid) : Nat := (u.toNat >>> 76) % 16

/-- The variant, from the top two bits of the ninth byte. The common one is 2. -/
def variant (u : Uuid) : Nat := (u.toNat >>> 62) % 4

/-- A version 4 UUID: all bits as given but those of version and variant. -/
def ofRandomBits (bits : BitVec 128) : Uuid :=
  ⟨bits.extractLsb' 80 48 ++ (4#4 ++ (bits.extractLsb' 64 12 ++ (2#2 ++ bits.extractLsb' 0 62)))⟩

/-! ## Reading -/

/-- The UUID of thirty-two hexadecimal digits. -/
def ofDigits? (cs : List Char) : Option Uuid :=
  if cs.length = 32 then ofNat <$> Text.hexValue? cs else none

/-- A text without the hyphens that join its groups, all but the last of the widths given. -/
def ungroup? : (widths : List Nat) → List Char → Option (List Char)
  | [], cs => some cs
  | width :: widths, cs =>
    match cs.drop width with
    | '-' :: rest => (cs.take width ++ ·) <$> ungroup? widths rest
    | _ => none

def ofHyphenated? (cs : List Char) : Option Uuid :=
  (ungroup? [8, 4, 4, 4] cs).bind ofDigits?

/-- The hyphenated text inside braces or after `urn:uuid:`, which a resource name may spell in
letters of either case. -/
def unwrap? (cs : List Char) : Option (List Char) :=
  if cs.length = 38 ∧ cs.head? = some '{' ∧ cs.getLast? = some '}' then some (cs.tail.take 36)
  else if cs.length = 45 ∧ (cs.take 9).map Char.toLower = "urn:uuid:".toList then some (cs.drop 9)
  else none

/-- The UUID that a text names in one of the four forms. -/
def ofChars? (cs : List Char) : Option Uuid :=
  if cs.length = 32 then ofDigits? cs
  else if cs.length = 36 then ofHyphenated? cs
  else (unwrap? cs).bind ofHyphenated?

end Uuid

end Dossier
