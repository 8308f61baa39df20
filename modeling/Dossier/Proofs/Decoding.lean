import Dossier.Codec
import Dossier.Proofs.Plain

/-!
# Decoded texts

The reader of JSON makes a table of the entries of an object, so whatever the
JSON codec decodes has distinct keys at every depth (`Codec.keysDistinct_decode`).
-/

namespace Dossier

namespace Json

open Text (Reader)

/-- Whatever the reader takes has the property. -/
def Reads {α : Type} (reader : Reader α) (P : α → Prop) : Prop :=
  ∀ cs value rest, reader cs = some (value, rest) → P value

theorem reads_scalar : Reads readScalar KeysDistinct := by
  intro cs json rest read
  unfold readScalar at read
  split at read
  · cases read; exact .null
  · cases read; exact .bool true
  · cases read; exact .bool false
  · obtain ⟨⟨s, _⟩, -, same⟩ := Option.bind_eq_some_iff.1 read
    cases same
    exact .string s
  · obtain ⟨⟨n, _⟩, -, same⟩ := Option.bind_eq_some_iff.1 read
    cases same
    exact .number n

section Containers

variable {α : Type} {item : Reader α} {P : α → Prop}

/-- By induction on the bound of the number of items. -/
theorem reads_sequence (h : Reads item P) (close : Char) (bound : Nat) :
    Reads (readSequence item close bound) fun items => ∀ x ∈ items, P x := by
  induction bound with
  | zero => exact fun cs items rest read => absurd read (by simp [readSequence])
  | succ bound ih =>
    intro cs items rest read
    rw [readSequence] at read
    obtain ⟨⟨x, after⟩, first, read⟩ := Option.bind_eq_some_iff.1 read
    have head := h cs x after first
    dsimp only at read
    split at read
    · split at read
      · obtain ⟨⟨xs, _⟩, later, same⟩ := Option.bind_eq_some_iff.1 read
        cases same
        have tail := ih _ xs _ later
        exact List.forall_mem_cons.2 ⟨head, tail⟩
      · split at read
        · cases read
          exact List.forall_mem_cons.2 ⟨head, List.forall_mem_nil _⟩
        · cases read
    · cases read

theorem reads_container (h : Reads item P) (close : Char) :
    Reads (readContainer item close) fun items => ∀ x ∈ items, P x := by
  intro cs items rest read
  unfold readContainer at read
  split at read
  · split at read
    · cases read
      exact List.forall_mem_nil _
    · exact reads_sequence h close _ _ _ _ read
  · cases read

theorem reads_entry {value : Reader Json} {P : Json → Prop} (h : Reads value P) :
    Reads (readEntry value) fun entry => P entry.2 := by
  intro cs entry rest read
  unfold readEntry at read
  split at read
  · obtain ⟨⟨key, after⟩, -, read⟩ := Option.bind_eq_some_iff.1 read
    dsimp only at read
    split at read
    · obtain ⟨⟨json, _⟩, held, same⟩ := Option.bind_eq_some_iff.1 read
      cases same
      exact h _ json _ held
    · cases read
  · cases read

end Containers

/-- By induction on how deep containers may nest. -/
theorem reads_value (depth : Nat) : Reads (readValue depth) KeysDistinct := by
  induction depth with
  | zero =>
    intro cs json rest read
    rw [readValue] at read
    split at read
    · cases read
    · cases read
    · exact reads_scalar _ json rest read
  | succ depth ih =>
    intro cs json rest read
    rw [readValue] at read
    split at read
    · obtain ⟨⟨items, _⟩, inside, same⟩ := Option.bind_eq_some_iff.1 read
      cases same
      exact .array (reads_container ih ']' _ items _ inside)
    · obtain ⟨⟨entries, _⟩, inside, same⟩ := Option.bind_eq_some_iff.1 read
      cases same
      -- putting the entries into a table drops repeated keys
      have each := reads_container (reads_entry ih) '}' _ entries _ inside
      exact .object (Table.distinct_ofEntries entries)
        (Table.forall_insertAll (List.forall_mem_nil _) each)
    · exact reads_scalar _ json rest read

theorem keysDistinct_of_parse? {text : String} {json : Json} (h : parse? text = some json) :
    json.KeysDistinct := by
  obtain ⟨⟨read, rest⟩, found, same⟩ := Option.bind_eq_some_iff.1 h
  dsimp only at same
  split at same
  · cases same
    exact reads_value maxDepth _ _ rest found
  · cases same

end Json

/-- **What the JSON codec decodes has distinct keys.** -/
theorem Codec.keysDistinct_decode {indent : Nat} {text : String} {decoded : Json}
    (h : (Codec.json indent).decode text = .ok decoded) : decoded.KeysDistinct := by
  unfold json at h
  dsimp only at h
  split at h
  · next found =>
    cases h
    exact Json.keysDistinct_of_parse? found
  · cases h

end Dossier
