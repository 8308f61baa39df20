import Dossier.Proofs.Plain
import Dossier.Proofs.Reachable

/-!
# Where numbers come from

Integers and texts are taken for numbers where a field asks for one. A number in
an entity that was built is one that was supplied, or that an integer or a text
in what was supplied is taken for, or has come with a default of the schema
(`Context.build_sourced`). Coercion of leaves adds none: an identifier is no
numeral, since it has more hyphens than any.
-/

namespace Dossier

namespace Text

theorem count_dropWhile {p : Char → Bool} {c : Char} (kept : p c = false) (cs : List Char) :
    (cs.dropWhile p).count c = cs.count c := by
  induction cs with
  | nil => rfl
  | cons d cs ih =>
    by_cases dropped : p d = true
    · have other : d ≠ c := by
        rintro rfl
        rw [kept] at dropped
        cases dropped
      rw [List.dropWhile_cons_of_pos dropped, ih, List.count_cons_of_ne other]
    · rw [List.dropWhile_cons_of_neg dropped]

/-- Nothing but blanks is trimmed. -/
theorem count_trim {c : Char} (visible : isBlank c = false) (cs : List Char) :
    (trim cs).count c = cs.count c := by
  rw [trim, List.count_reverse, skipBlanks, count_dropWhile visible, List.count_reverse, skipBlanks,
    count_dropWhile visible]

end Text

namespace Binary64

/-- What stands after an optional sign has at most that hyphen less. -/
theorem count_sign {cs rest : List Char} {negative : Bool}
    (same : (match cs with
      | '-' :: rest => (true, rest)
      | '+' :: rest => (false, rest)
      | rest => (false, rest)) = (negative, rest)) :
    cs.count '-' ≤ rest.count '-' + 1 := by
  split at same <;> cases same <;> simp

theorem count_exponentOf? {cs : List Char} {n : Int} (h : exponentOf? cs = some n) :
    cs.count '-' ≤ 1 := by
  revert h
  fun_cases exponentOf? cs with
  | case1 => simp
  | case2 mark cs marked negative rest same digits =>
    intro _
    have apart : mark ≠ '-' := by rcases marked with rfl | rfl <;> decide
    have none : rest.count '-' = 0 := by
      rw [List.count_eq_zero]
      intro member
      exact absurd (List.all_eq_true.1 digits.2 '-' member) (by decide)
    have sign := count_sign same
    rw [List.count_cons_of_ne apart]
    omega
  | case3 => simp
  | case4 => simp

theorem count_ofUnsigned? {negative : Bool} {cs : List Char} {x : Binary64}
    (h : ofUnsigned? negative cs = some x) : cs.count '-' ≤ 1 := by
  have digit : Char.isDigit '-' = false := by decide
  revert h
  fun_cases ofUnsigned? negative cs with
  | case1 => simp
  | case2 whole fraction rest split =>
    intro h
    obtain ⟨exponent, read, -⟩ := Option.map_eq_some_iff.1 h
    have bound := count_exponentOf? read
    rw [← Text.count_dropWhile digit cs]
    split at split
    · next after point =>
      cases split
      rw [point, List.count_cons_of_ne (by decide)]
      rwa [Text.count_dropWhile digit] at bound
    · next unpointed =>
      cases split
      exact bound

/-- A decimal text has a hyphen for its sign and one for that of its exponent, at most. -/
theorem count_ofChars? {cs : List Char} {x : Binary64} (h : ofChars? cs = some x) :
    cs.count '-' ≤ 2 := by
  have word : ∀ {letters : List Char} {w : String}, String.ofList (letters.map Char.toLower) = w →
      '-' ∉ w.toList → letters.count '-' = 0 := by
    rintro letters _ rfl absent
    rw [List.count_eq_zero]
    intro member
    rw [String.toList_ofList] at absent
    exact absent (List.mem_map.2 ⟨'-', member, rfl⟩)
  revert h
  fun_cases ofChars? cs with
  | case1 negative rest same letters infinite =>
    intro _
    have sign := count_sign same
    have none : rest.count '-' = 0 := by
      rcases infinite with spelt | spelt
      · exact word spelt (by decide)
      · exact word spelt (by decide)
    omega
  | case2 negative rest same letters _ spelt =>
    intro _
    have sign := count_sign same
    have none := word spelt (by decide)
    omega
  | case3 negative rest same =>
    intro read
    have sign := count_sign same
    have bound := count_ofUnsigned? read
    omega

end Binary64

/-- No identifier is read as a number: it has too many hyphens. -/
theorem numberOfText?_text (id : Identifier) : numberOfText? id.text = none := by
  rw [Option.eq_none_iff_forall_ne_some]
  intro x read
  have bound := Binary64.count_ofChars? read
  rw [Text.count_trim (by decide), Identifier.toList_text, Uuid.chars] at bound
  simp only [List.count_append, List.count_cons_self] at bound
  omega

/-! ## Numbers in values -/

/-- The values that a value is made of. -/
def Value.parts : Value → List Value
  | list items => items
  | mapping entries => entries.map (·.2)
  | entity e => (e.values ++ e.extras).map (·.2)
  | related r => r.embedded?.toList.map .entity
  | _ => []

/-- A value is stored in another, at any depth, or is that value. -/
inductive Value.Inside (u : Value) : Value → Prop where
  | here : Inside u u
  | part {v w : Value} (member : v ∈ w.parts) (inside : Inside u v) : Inside u w

/-- Something in the value is the number, or is taken for it where a number is asked for. -/
def Value.Yields (x : Binary64) (value : Value) : Prop :=
  ∃ u : Value, u.Inside value ∧ LeafKind.coerceNumber u = .ok (.number x)

/-- Whatever number the value yields has a property. -/
def Value.Sourced (P : Binary64 → Prop) (value : Value) : Prop := ∀ x, value.Yields x → P x

def Entity.Sourced (P : Binary64 → Prop) (e : Entity) : Prop := (Value.entity e).Sourced P

namespace Value

variable {x : Binary64} {v : Value} {P : Binary64 → Prop}

theorem yields_iff :
    v.Yields x ↔ LeafKind.coerceNumber v = .ok (.number x) ∨ ∃ part ∈ v.parts, part.Yields x := by
  constructor
  · rintro ⟨u, inside, taken⟩
    cases inside with
    | here => exact .inl taken
    | part member inside => exact .inr ⟨_, member, u, inside, taken⟩
  · rintro (taken | ⟨part, member, u, inside, taken⟩)
    · exact ⟨v, .here, taken⟩
    · exact ⟨u, .part member inside, taken⟩

theorem sourced_iff :
    v.Sourced P ↔ (∀ x, LeafKind.coerceNumber v = .ok (.number x) → P x) ∧
      ∀ part ∈ v.parts, part.Sourced P := by
  constructor
  · intro h
    refine ⟨fun x taken => h x (yields_iff.2 (.inl taken)), fun part member x yields => ?_⟩
    exact h x (yields_iff.2 (.inr ⟨part, member, yields⟩))
  · rintro ⟨own, parts⟩ x yields
    rcases yields_iff.1 yields with taken | ⟨part, member, yields⟩
    · exact own x taken
    · exact parts part member x yields

/-- What has no parts yields only what it is taken for itself. -/
theorem taken_of_yields (scalar : v.parts = []) (yields : v.Yields x) :
    LeafKind.coerceNumber v = .ok (.number x) := by
  rcases yields_iff.1 yields with taken | ⟨part, member, -⟩
  · exact taken
  · rw [scalar] at member
    exact absurd member List.not_mem_nil

theorem read_of_yields_string {s : String} (yields : (string s).Yields x) :
    numberOfText? s = some x := by
  have taken := taken_of_yields rfl yields
  simp only [LeafKind.coerceNumber] at taken
  split at taken
  · next read =>
    cases taken
    exact read
  · cases taken

/-- An integer is taken for a finite number. -/
theorem finite_of_yields_integer {i : Int64} (yields : (integer i).Yields x) :
    ∃ y, x = .finite y := by
  cases taken_of_yields rfl yields
  have low : -9223372036854775808 ≤ i.toInt := i.le_toInt
  have high : i.toInt < 9223372036854775808 := i.toInt_lt
  exact Binary64.ofInt_finite (by omega)

theorem eq_of_yields_number {y : Binary64} (yields : (number y).Yields x) : y = x := by
  cases taken_of_yields rfl yields
  rfl

end Value

/-- What a leaf is coerced to yields a number only if what was supplied did, or an integer was made
of it. -/
theorem LeafKind.sourced_of_coerce {P : Binary64 → Prop} (finite : ∀ x, P (.finite x))
    {kind : LeafKind} {raw value : Value} (h : kind.coerce raw = .ok value)
    (sourced : raw.Sourced P) : value.Sourced P := by
  have shape := holds_of_coerce h
  intro x yields
  cases kind with
  | string => cases raw <;> cases h <;> exact sourced x yields
  | dictionary => cases raw <;> cases h <;> exact sourced x yields
  | boolean =>
    cases value with
    | bool b => cases Value.taken_of_yields rfl yields
    | _ => exact absurd shape id
  | timestamp =>
    cases value with
    | timestamp t => cases Value.taken_of_yields rfl yields
    | _ => exact absurd shape id
  | integer =>
    cases value with
    | integer i =>
      obtain ⟨y, rfl⟩ := Value.finite_of_yields_integer yields
      exact finite y
    | _ => exact absurd shape id
  | float =>
    cases value with
    | number y =>
      -- the number that what was supplied is taken for
      obtain rfl := Value.eq_of_yields_number yields
      exact sourced y (Value.yields_iff.2 (.inl h))
    | _ => exact absurd shape id
  | identifier allowed =>
    simp only [coerce, coerceIdentifier] at h
    split at h
    · next id read =>
      split at h
      · cases h
      · cases h
        have numeral := Value.read_of_yields_string yields
        rw [numberOfText?_text] at numeral
        cases numeral
    · cases h

/-- The numbers that values yield are carried over, except that integers are made finite ones. -/
theorem Value.conveys_sourced {P : Binary64 → Prop} (finite : ∀ x, P (.finite x)) :
    Value.Conveys (Sourced P) (Entity.Sourced P) where
  leaf := LeafKind.sourced_of_coerce finite
  identifier id := by
    intro x yields
    have numeral := read_of_yields_string yields
    rw [numberOfText?_text] at numeral
    cases numeral
  timestamp t := by
    intro x yields
    cases taken_of_yields rfl yields
  list := sourced_iff.trans (by simp [parts, LeafKind.coerceNumber])
  entry h entry member := (sourced_iff.1 h).2 _ (List.mem_map_of_mem member)
  entity := Iff.rfl
  related := sourced_iff.trans (by simp [parts, LeafKind.coerceNumber, Entity.Sourced])

/-- The number comes with a default of the schema. -/
def Context.Brings (ctx : Context) (x : Binary64) : Prop :=
  ∃ key, ∃ f ∈ (ctx.schema.typeOf key).fields, ∃ default, f.default? = some default ∧
    default.Adds ctx (·.Yields x)

/-- **Numbers come from what was supplied or with a default.** A property of numbers that finite ones
have, those of what is supplied and those of defaults, the numbers of what is built have. -/
theorem Context.build_sourced (ctx : Context) {P : Binary64 → Prop} (finite : ∀ x, P (.finite x))
    (brought : ∀ x, ctx.Brings x → P x) (type : TypeKey) {supplied : Mapping}
    (each : supplied.All (·.Sourced P)) :
    (ctx.build type supplied).Ensures fun e => e.typeKey = type ∧ e.Sourced P := by
  have makes : ctx.build.Makes (fun _ => True) (·.Sourced P) (Entity.Sourced P) := by
    refine build_carries (Value.conveys_sourced finite) (fun _ _ f _ => f.asks_any ctx)
      (fun type _ f member default given => ?_) fun e _ _ values extras => ?_
    · exact Default.offers_of_adds fun x adds =>
        brought x ⟨type, f, member, default, given, adds⟩
    · refine Value.sourced_iff.2 ⟨?_, ?_⟩
      · intro x taken
        cases taken
      · rw [Value.parts, List.forall_mem_map]
        exact List.forall_mem_append.2 ⟨values, extras⟩
  exact makes type trivial supplied each

end Dossier
