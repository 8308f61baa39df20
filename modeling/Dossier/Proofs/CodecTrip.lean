import Dossier.Codec
import Dossier.Proofs.JsonText
import Dossier.Proofs.Nulls

/-!
# The round trip of the codec

What the codec decodes of a mapping's own text does not depend on the layout: not on
whether the text is pretty, and not on the indent. It is the mapping, with its keys in
order and its strings and numbers as they are, unless the mapping nests too deep or
holds a float whose digits are read as another (`Codec.decode_encode`).
-/

namespace Dossier

namespace Json

variable {json inner : Json}

/-- By induction on where the document occurs. -/
theorem Stable.of_occurs (stable : json.Stable) (occurs : inner.Occurs json) : inner.Stable := by
  induction occurs with
  | here => exact stable
  | @part json whole member _ ih =>
    apply ih
    cases stable with
    | array each => exact each json member
    | object each =>
      obtain ⟨entry, there, rfl⟩ := List.mem_map.1 member
      exact each entry there
    | _ => exact absurd member List.not_mem_nil

/-- A document is stable if its floats are. Zeros always are. -/
theorem stable_iff (distinct : json.KeysDistinct) : json.Stable ↔
    ∀ x : Binary64.Finite, x.isZero = false → (number (.float x)).Occurs json →
      (Number.float x).Stable := by
  constructor
  · intro stable x _ occurs
    exact stable_number.1 (stable.of_occurs occurs)
  · intro floats
    induction distinct with
    | null => exact .null
    | bool b => exact .bool b
    | number n =>
      refine .number ?_
      cases n with
      | integer value lower upper => exact Number.stable_integer value lower upper
      | float x =>
        -- either zero is read back, so only the others are asked for
        cases zero : x.isZero with
        | true => exact Number.stable_zero zero
        | false => exact floats x zero .here
    | string s => exact .string s
    | array _ ih =>
      exact .array fun item member => ih item member fun x nonzero occurs =>
        floats x nonzero (.part member occurs)
    | object _ _ ih =>
      exact .object fun entry member => ih entry member fun x nonzero occurs =>
        floats x nonzero (.part (List.mem_map_of_mem member) occurs)

end Json

namespace Codec

variable {m : Table Json} {indent : Nat}

theorem encode_compact :
    (json indent).encode m false = .ok (Json.render .compact (.object m)) := rfl

theorem encode_pretty :
    (json indent).encode m true = .ok (Json.render (.pretty indent) (.object m)) := rfl

theorem decode_eq_ok {text : String} {read : Json} :
    (json indent).decode text = .ok read ↔ Json.parse? text = some read := by
  unfold json
  dsimp only
  cases Json.parse? text <;> simp

/-- A text of a mapping, in whatever layout, is read as the mapping is read again. -/
theorem decode_render (indent : Nat) (distinct : (Json.object m).KeysDistinct)
    {layout : Json.Layout} (blanks : layout.Blanks) (read : Json) :
    (json indent).decode ((Json.object m).render layout) = .ok read ↔
      (Json.object m).nesting ≤ Json.maxDepth ∧ (Json.object m).reread? = some read := by
  rw [decode_eq_ok, Json.parse?_text blanks distinct]
  split
  · next shallow => exact (and_iff_right shallow).symm
  · next deep =>
    constructor
    · rintro ⟨⟩
    · rintro ⟨shallow, -⟩
      exact absurd shallow deep

/-- The codec refuses texts with one error only. -/
theorem decode_eq_of_iff {one other : String} (same : ∀ read,
    (json indent).decode one = .ok read ↔ (json indent).decode other = .ok read) :
    (json indent).decode one = (json indent).decode other := by
  simp only [decode_eq_ok] at same
  unfold json
  dsimp only
  rw [Option.ext same]

/-- **The codec reads what it writes**: both texts of a mapping, for whatever indent, are read as
the same. They are read as the mapping itself, keys in order, just if it nests at most 127 deep and
each of its floats, other than zeros, is what its digits are read as. -/
theorem decode_encode (distinct : (Json.object m).KeysDistinct) (indent : Nat) :
    ∃ compact pretty,
      (json indent).encode m false = .ok compact ∧
      (json indent).encode m true = .ok pretty ∧
      (json indent).decode compact = (json indent).decode pretty ∧
      ((json indent).decode pretty = .ok (.object m) ↔ (Json.object m).nesting ≤ 127 ∧
        ∀ x : Binary64.Finite, x.isZero = false → (Json.number (.float x)).Occurs (.object m) →
          (Json.Number.float x).Stable) ∧
      ∀ read, (json indent).decode pretty = .ok read ↔
        (Json.object m).nesting ≤ 127 ∧ (Json.object m).reread? = some read := by
  have compact := decode_render indent distinct Json.Layout.blanks_compact
  have pretty := decode_render indent distinct (Json.Layout.blanks_pretty indent)
  refine ⟨_, _, encode_compact, encode_pretty, ?_, ?_, pretty⟩
  · exact decode_eq_of_iff fun read => (compact read).trans (pretty read).symm
  · rw [pretty, Json.reread?_eq_self distinct, Json.stable_iff distinct]
    rfl

/-- The floats 1.5, the greatest one and the least one. -/
def floats : List Binary64.Finite :=
  [⟨false, 6755399441055744, 1022, by decide, by decide, .inr (by decide)⟩,
   ⟨true, 9007199254740991, 2045, by decide, by decide, .inr (by decide)⟩,
   ⟨false, 1, 0, by decide, (Binary64.Finite.zero false).shift_le, .inl rfl⟩]

/-- Escapes of each sort, both sorts of number, zero with either sign, and containers with nothing
in them. -/
def assortment : Table Json :=
  [("text", .string "\"\\/\x08\x0c\n\r\t\x00\x1f\x7f é\u2028😀"),
   ("zeros", .array [.ofInt64 0, .number (.float (.zero true)), .number (.float (.zero false))]),
   ("floats", .array (floats.map fun x => .number (.float x))),
   ("", .object [("b", .array []), ("a", .object []), ("c", .null), ("d", .bool true)])]

/-- With an indent of no blanks. -/
theorem assortment_decoded :
    (Json.object assortment).KeysDistinct ∧ ∃ compact pretty,
      (json 0).encode assortment false = .ok compact ∧
      (json 0).encode assortment true = .ok pretty ∧
      (json 0).decode compact = .ok (.object assortment) ∧
      (json 0).decode pretty = .ok (.object assortment) := by
  have distinct : (Json.object assortment).KeysDistinct := by
    have empty : (Json.object []).KeysDistinct := .object (by decide) (List.forall_mem_nil _)
    refine .object (by decide) ?_
    simp only [assortment, List.forall_mem_cons]
    refine ⟨.string _, .array ?_, .array ?_, .object (by decide) ?_, List.forall_mem_nil _⟩
    · simp [Json.KeysDistinct.number, Json.ofInt64]
    · simp [Json.KeysDistinct.number]
    · simp [Json.KeysDistinct.null, Json.KeysDistinct.bool, Json.KeysDistinct.array, empty]
  have stable : (Json.object assortment).Stable := by
    have zero : (Json.Number.integer 0 (by decide) (by decide)).Stable :=
      Json.Number.stable_integer ..
    have zeros : ∀ negative, (Json.Number.float (.zero negative)).Stable :=
      fun _ => Json.Number.stable_zero rfl
    have each : ∀ x ∈ floats, (Json.Number.float x).Stable := by decide +kernel
    simpa [assortment, Json.ofInt64, Json.Stable.null, Json.Stable.bool, zero, zeros] using each
  obtain ⟨compact, pretty, encoded, indented, same, whole, -⟩ := decode_encode distinct 0
  have decoded := whole.2 ⟨by decide, (Json.stable_iff distinct).1 stable⟩
  exact ⟨distinct, compact, pretty, encoded, indented, same.trans decoded, decoded⟩

end Codec

end Dossier
