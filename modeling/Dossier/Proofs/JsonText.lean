import Dossier.Proofs.Decoding
import Dossier.Proofs.JsonTokens

/-!
# Texts of JSON

What is read of a document's own text is the document up to its floats, in whatever
layout, if its keys are distinct and the arrays and objects in it nest no deeper than
the reader goes. If they nest deeper, the text is refused (`Json.parse?_text`). It is
the document itself if its numbers are stable (`Json.parse?_render`).
-/

namespace Dossier.Json

open Text (Reader)

mutual

/-- How many arrays and objects nest in a document. -/
def nesting : Json → Nat
  | array items => itemsNesting items + 1
  | object entries => entriesNesting entries + 1
  | _ => 0

def itemsNesting : List Json → Nat
  | [] => 0
  | item :: items => max (nesting item) (itemsNesting items)

def entriesNesting : List (String × Json) → Nat
  | [] => 0
  | (_, json) :: entries => max (nesting json) (entriesNesting entries)

end

theorem itemsNesting_le {items : List Json} {depth : Nat} :
    itemsNesting items ≤ depth ↔ ∀ item ∈ items, item.nesting ≤ depth := by
  induction items with
  | nil => simp [itemsNesting]
  | cons item items ih => rw [itemsNesting, Nat.max_le, ih, List.forall_mem_cons]

theorem entriesNesting_le {entries : List (String × Json)} {depth : Nat} :
    entriesNesting entries ≤ depth ↔ ∀ entry ∈ entries, entry.2.nesting ≤ depth := by
  induction entries with
  | nil => simp [entriesNesting]
  | cons entry entries ih => rw [entriesNesting, Nat.max_le, ih, List.forall_mem_cons]

/-- All numbers in a document are read back from what they are written as. -/
inductive Stable : Json → Prop where
  | null : Stable null
  | bool (b : Bool) : Stable (bool b)
  | number {n : Number} (stable : n.Stable) : Stable (number n)
  | string (s : String) : Stable (string s)
  | array {items : List Json} (each : ∀ item ∈ items, Stable item) : Stable (array items)
  | object {entries : List (String × Json)} (each : ∀ entry ∈ entries, Stable entry.2) :
    Stable (object entries)

@[simp] theorem stable_number {n : Number} : (number n).Stable ↔ n.Stable := by
  refine ⟨?_, .number⟩
  rintro (_ | _ | stable)
  exact stable

@[simp] theorem stable_string (s : String) : (string s).Stable := .string s

@[simp] theorem stable_array {items : List Json} :
    (array items).Stable ↔ ∀ item ∈ items, item.Stable := by
  refine ⟨?_, .array⟩
  rintro (_ | _ | _ | _ | each)
  exact each

@[simp] theorem stable_object {entries : List (String × Json)} :
    (object entries).Stable ↔ ∀ entry ∈ entries, entry.2.Stable := by
  refine ⟨?_, .object⟩
  rintro (_ | _ | _ | _ | _ | each)
  exact each

/-! ## Floats -/

section Parts

variable {α β : Type}

/-- All items have to fit. -/
theorem mapM_guarded (fits : α → Prop) [DecidablePred fits] (f : α → Option β) (items : List α) :
    items.mapM (fun x => if fits x then f x else none) =
      if ∀ x ∈ items, fits x then items.mapM f else none := by
  induction items with
  | nil => simp
  | cons x items ih =>
    rw [List.mapM_cons, List.mapM_cons, ih]
    by_cases first : fits x
    · by_cases later : ∀ x ∈ items, fits x
      · rw [if_pos first, if_pos later, if_pos (List.forall_mem_cons.2 ⟨first, later⟩)]
      · rw [if_pos first, if_neg later, if_neg fun all => later (List.forall_mem_cons.1 all).2]
        cases f x <;> rfl
    · rw [if_neg first, if_neg fun all => first (List.forall_mem_cons.1 all).1]
      rfl

theorem mapM_eq_self {f : α → Option α} {items : List α} :
    items.mapM f = some items ↔ ∀ x ∈ items, f x = some x := by
  induction items with
  | nil => simp
  | cons x items ih =>
    rw [List.mapM_cons, List.forall_mem_cons, ← ih]
    cases f x <;> cases items.mapM f <;> simp

end Parts

mutual

/-- The document that is read of a document's own text. Only floats come to others. -/
def reread? : Json → Option Json
  | number n => number <$> n.reread?
  | array items => array <$> rereadItems? items
  | object entries => object <$> rereadEntries? entries
  | json => some json

def rereadItems? : List Json → Option (List Json)
  | [] => some []
  | item :: items => do return (← reread? item) :: (← rereadItems? items)

def rereadEntries? : List (String × Json) → Option (List (String × Json))
  | [] => some []
  | (key, json) :: entries => do return (key, ← reread? json) :: (← rereadEntries? entries)

end

def rereadPair? (entry : String × Json) : Option (String × Json) :=
  (fun json => (entry.1, json)) <$> entry.2.reread?

theorem rereadItems?_eq (items : List Json) : rereadItems? items = items.mapM reread? := by
  induction items with
  | nil => rfl
  | cons item items ih => rw [rereadItems?, ih, List.mapM_cons]

theorem rereadEntries?_eq (entries : List (String × Json)) :
    rereadEntries? entries = entries.mapM rereadPair? := by
  induction entries with
  | nil => rfl
  | cons entry entries ih =>
    rw [rereadEntries?, ih, List.mapM_cons, rereadPair?]
    cases entry.2.reread? <;> rfl

/-- Keys stay as they are. -/
theorem map_fst_of_mapM_rereadPair? {entries read : List (String × Json)}
    (same : entries.mapM rereadPair? = some read) : read.map (·.1) = entries.map (·.1) := by
  induction entries generalizing read with
  | nil =>
    cases same
    rfl
  | cons entry entries ih =>
    rw [List.mapM_cons] at same
    obtain ⟨first, taken, same⟩ := Option.bind_eq_some_iff.1 same
    obtain ⟨more, later, same⟩ := Option.bind_eq_some_iff.1 same
    obtain ⟨json, -, rfl⟩ := Option.map_eq_some_iff.1 taken
    cases same
    rw [List.map_cons, List.map_cons, ih later]

/-- The text is made of blanks. -/
def Blank (cs : List Char) : Prop := ∀ c ∈ cs, isSpace c = true

/-- Nothing but blanks is written between tokens. -/
structure Layout.Blanks (layout : Layout) : Prop where
  lineBreak : ∀ depth, Blank (layout.lineBreak depth)
  afterColon : Blank layout.afterColon

theorem Layout.blanks_compact : compact.Blanks where
  lineBreak _ := List.forall_mem_nil _
  afterColon := List.forall_mem_nil _

theorem Layout.blanks_pretty (indent : Nat) : (pretty indent).Blanks where
  lineBreak depth := by
    intro c member
    rcases List.mem_cons.1 member with rfl | padding
    · rfl
    · rw [List.eq_of_mem_replicate padding]
      rfl
  afterColon := by
    intro c member
    rw [List.mem_singleton.1 member]
    rfl

theorem skipSpace_append {blank : List Char} (h : Blank blank) {c : Char}
    (other : isSpace c = false) (rest : List Char) :
    skipSpace (blank ++ c :: rest) = c :: rest := by
  rw [skipSpace, List.dropWhile_append_of_pos h, List.dropWhile_cons_of_neg (by simp [other])]

theorem Stops.after {blank rest : List Char} (stops : Stops rest) (h : Blank blank) :
    Stops (blank ++ rest) := by
  cases blank with
  | nil => exact stops
  | cons c blank =>
    have space := h c List.mem_cons_self
    simp only [isSpace, Bool.or_eq_true, decide_eq_true_eq] at space
    apply stops_cons
    rcases space with ((rfl | rfl) | rfl) | rfl <;> decide

/-! ## Sequences -/

/-- A reader makes what is given for an item, if anything, of what is written of it, behind any
blanks. -/
def ReadsAs {α β : Type} (reader : Reader β) (write : α → List Char) (result : α → Option β)
    (x : α) : Prop :=
  ∀ blank rest, Blank blank → Stops rest →
    reader (blank ++ (write x ++ rest)) = (result x).map fun y => (y, rest)

/-- What is written of items after the first. -/
def following {α : Type} (lineBreak : List Char) (write : α → List Char) (items : List α) :
    List Char :=
  items.flatMap fun x => ',' :: (lineBreak ++ write x)

section Sequences

variable {α β : Type} {reader : Reader β} {write : α → List Char} {result : α → Option β}
  {close : Char} {lineBreak outer : List Char}

/-- By induction on the items after the first. -/
theorem readSequence_write (closes : close = ']' ∨ close = '\x7d') (inner : Blank lineBreak)
    (last : Blank outer) {x : α} {items : List α}
    (each : ∀ y ∈ x :: items, ReadsAs reader write result y) {bound : Nat}
    (enough : items.length < bound) (rest : List Char) :
    readSequence reader close bound
        (lineBreak ++ (write x ++ (following lineBreak write items ++ (outer ++ close :: rest)))) =
      ((x :: items).mapM result).map fun ys => (ys, rest) := by
  have space : isSpace close = false := by
    rcases closes with rfl | rfl <;> rfl
  -- the bracket ends whatever number stands last
  have stops : Stops (outer ++ close :: rest) := by
    apply Stops.after _ last
    apply stops_cons
    rcases closes with rfl | rfl <;> decide
  induction items generalizing x bound with
  | nil =>
    obtain ⟨bound, rfl⟩ : ∃ n, bound = n + 1 := ⟨bound - 1, by omega⟩
    have first := each x List.mem_cons_self lineBreak _ inner stops
    have comma : close ≠ ',' := by
      rcases closes with rfl | rfl <;> decide
    simp only [following, List.flatMap_nil, List.nil_append] at first ⊢
    rw [readSequence, first, List.mapM_cons, List.mapM_nil]
    cases result x with
    | none => rfl
    | some y =>
      simp only [Option.map_some, Option.bind_eq_bind, Option.bind_some,
        skipSpace_append last space, if_neg comma, if_true]
      rfl
  | cons y items ih =>
    obtain ⟨bound, rfl⟩ : ∃ n, bound = n + 1 := ⟨bound - 1, by omega⟩
    have first := each x List.mem_cons_self lineBreak
      (',' :: (lineBreak ++
        (write y ++ (following lineBreak write items ++ (outer ++ close :: rest)))))
      inner (stops_cons (by decide) _)
    -- what was read of one item leaves the comma, and the rest is a shorter row
    have later := ih (x := y) (fun z member => each z (List.mem_cons_of_mem _ member))
      (show items.length < bound by simpa using enough)
    have whole : following lineBreak write (y :: items) ++ (outer ++ close :: rest) =
        ',' :: (lineBreak ++ (write y ++ (following lineBreak write items ++
          (outer ++ close :: rest)))) := by
      simp [following]
    have comma : skipSpace (',' :: (lineBreak ++ (write y ++ (following lineBreak write items ++
        (outer ++ close :: rest))))) = ',' :: (lineBreak ++ (write y ++
          (following lineBreak write items ++ (outer ++ close :: rest)))) := rfl
    rw [whole, readSequence, first, List.mapM_cons]
    cases result x with
    | none => rfl
    | some z =>
      simp only [Option.map_some, Option.bind_eq_bind, Option.bind_some, comma, if_true, later]
      cases (y :: items).mapM result <;> rfl

theorem length_following (lineBreak : List Char) (write : α → List Char) (items : List α) :
    items.length ≤ (following lineBreak write items).length := by
  unfold following
  induction items with
  | nil => exact Nat.le_refl 0
  | cons item items ih =>
    rw [List.flatMap_cons, List.length_append, List.length_cons, List.length_cons]
    omega

/-- What is written of a container behind its opening bracket. -/
def inside (close : Char) (lineBreak outer : List Char) (write : α → List Char) :
    List α → List Char
  | [] => [close]
  | x :: items => lineBreak ++ (write x ++ (following lineBreak write items ++ (outer ++ [close])))

/-- A container is read as what its items are read as. -/
theorem readContainer_inside (closes : close = ']' ∨ close = '\x7d') (inner : Blank lineBreak)
    (last : Blank outer) {items : List α}
    (begins : ∀ x ∈ items, ∃ c more, write x = c :: more ∧ isSpace c = false ∧ c ≠ close)
    (each : ∀ x ∈ items, ReadsAs reader write result x) (rest : List Char) :
    readContainer reader close (inside close lineBreak outer write items ++ rest) =
      (items.mapM result).map fun ys => (ys, rest) := by
  cases items with
  | nil =>
    have space : isSpace close = false := by
      rcases closes with rfl | rfl <;> rfl
    have here : skipSpace (close :: rest) = close :: rest :=
      skipSpace_append (List.forall_mem_nil _) space rest
    show readContainer reader close (close :: rest) = _
    unfold readContainer
    rw [here]
    exact if_pos rfl
  | cons x items =>
    have whole : inside close lineBreak outer write (x :: items) ++ rest = lineBreak ++ (write x ++
        (following lineBreak write items ++ (outer ++ close :: rest))) := by
      simp [inside]
    -- each item is written with at least its comma, so the bound on steps is not reached
    have enough : items.length < (lineBreak ++ (write x ++ (following lineBreak write items ++
        (outer ++ close :: rest)))).length := by
      have commas := length_following lineBreak write items
      simp only [List.length_append, List.length_cons]
      omega
    rw [whole, ← readSequence_write closes inner last each enough rest]
    obtain ⟨c, more, written, space, other⟩ := begins x List.mem_cons_self
    unfold readContainer
    rw [written, List.cons_append, skipSpace_append inner space]
    exact if_neg other

end Sequences

/-! ## Documents -/

/-- What is written of an entry. -/
def entryText (layout : Layout) (depth : Nat) (entry : String × Json) : List Char :=
  quoted entry.1 ++ ':' :: (layout.afterColon ++ chars layout depth entry.2)

theorem itemChars_eq (layout : Layout) (depth : Nat) (items : List Json) :
    itemChars layout depth items =
      following (layout.lineBreak depth) (chars layout depth) items := by
  induction items with
  | nil => rfl
  | cons item items ih => simp [itemChars, following, ih]

theorem entryChars_eq (layout : Layout) (depth : Nat) (entries : List (String × Json)) :
    entryChars layout depth entries =
      following (layout.lineBreak depth) (entryText layout depth) entries := by
  induction entries with
  | nil => rfl
  | cons entry entries ih => simp [entryChars, following, entryText, ih]

theorem chars_array (layout : Layout) (level : Nat) (items : List Json) :
    chars layout level (.array items) = '[' :: inside ']' (layout.lineBreak (level + 1))
      (layout.lineBreak level) (chars layout (level + 1)) items := by
  cases items with
  | nil => rfl
  | cons item items => rw [chars, itemChars_eq, inside]

theorem chars_object (layout : Layout) (level : Nat) (entries : List (String × Json)) :
    chars layout level (.object entries) = '\x7b' :: inside '\x7d' (layout.lineBreak (level + 1))
      (layout.lineBreak level) (entryText layout (level + 1)) entries := by
  cases entries with
  | nil => rfl
  | cons entry entries =>
    rw [chars, entryChars_eq, inside, entryText]
    simp

/-- The first character of a number is none of those that other tokens begin with. -/
theorem ne_of_begins {c : Char} (begins : c = '-' ∨ c.isDigit = true) {d : Char}
    (other : d ≠ '-' ∧ d.isDigit = false) : c ≠ d := by
  rintro rfl
  rcases begins with minus | digit
  · exact other.1 minus
  · rw [other.2] at digit
    cases digit

theorem isSpace_of_begins {c : Char} (begins : c = '-' ∨ c.isDigit = true) : isSpace c = false := by
  have other : ∀ d ∈ [' ', '\n', '\t', '\r'], d ≠ '-' ∧ d.isDigit = false := by simp
  have apart : ∀ d ∈ [' ', '\n', '\t', '\r'], c ≠ d :=
    fun d member => ne_of_begins begins (other d member)
  simpa [isSpace, and_assoc] using apart

/-- A document begins with neither a blank nor a bracket that closes. -/
theorem chars_begin (json : Json) (layout : Layout) (level : Nat) :
    ∃ c more, chars layout level json = c :: more ∧ isSpace c = false ∧ c ≠ ']' := by
  cases json with
  | null => exact ⟨_, _, rfl, rfl, by decide⟩
  | bool b => cases b <;> exact ⟨_, _, rfl, rfl, by decide⟩
  | number n =>
    obtain ⟨c, more, written, begins⟩ := n.head_chars
    exact ⟨c, more, written, isSpace_of_begins begins, ne_of_begins begins (by decide)⟩
  | string s => exact ⟨_, _, rfl, rfl, by decide⟩
  | array items => cases items <;> exact ⟨_, _, rfl, rfl, by decide⟩
  | object entries => cases entries <;> exact ⟨_, _, rfl, rfl, by decide⟩

/-- A value that is no container is read without regard for depth. -/
theorem readValue_scalar {blank : List Char} (h : Blank blank) {c : Char}
    (other : isSpace c = false ∧ c ≠ '[' ∧ c ≠ '\x7b') (depth : Nat) (rest : List Char) :
    readValue depth (blank ++ c :: rest) = readScalar (c :: rest) := by
  obtain ⟨space, array, object⟩ := other
  cases depth with
  | zero => simp [readValue, skipSpace_append h space, array, object]
  | succ depth => simp [readValue, skipSpace_append h space, array, object]

theorem readScalar_number (n : Number) {rest : List Char} (stops : Stops rest) :
    readScalar (n.chars ++ rest) = n.reread?.map fun m => (number m, rest) := by
  have read := n.readNumber_chars stops
  obtain ⟨c, more, written, begins⟩ := n.head_chars
  have other : ∀ d ∈ ['n', 't', 'f', '"'], c ≠ d := by
    have apart : ∀ d ∈ ['n', 't', 'f', '"'], d ≠ '-' ∧ d.isDigit = false := by simp
    exact fun d member => ne_of_begins begins (apart d member)
  rw [written] at read ⊢
  unfold readScalar
  split
  · next same => exact absurd (List.cons.inj same).1 (other 'n' (by simp))
  · next same => exact absurd (List.cons.inj same).1 (other 't' (by simp))
  · next same => exact absurd (List.cons.inj same).1 (other 'f' (by simp))
  · next same => exact absurd (List.cons.inj same).1 (other '"' (by simp))
  · rw [read]
    cases n.reread? <;> rfl

/-- What is read of a document where so many containers may nest. -/
def rereadWithin? (depth : Nat) (json : Json) : Option Json :=
  if json.nesting ≤ depth then json.reread? else none

section Documents

variable {layout : Layout} {depth level : Nat}

/-- An entry is read with its key as what its value is read as. -/
theorem readsAs_entry (blanks : layout.Blanks) {entry : String × Json}
    (value : ReadsAs (readValue depth) (chars layout level) (rereadWithin? depth) entry.2) :
    ReadsAs (readEntry (readValue depth)) (entryText layout level)
      (fun entry => if entry.2.nesting ≤ depth then rereadPair? entry else none) entry := by
  obtain ⟨key, json⟩ := entry
  intro blank rest blank' stops
  obtain ⟨body, written, read⟩ := readString_quoted key
    (':' :: (layout.afterColon ++ (chars layout level json ++ rest)))
  have whole : entryText layout level (key, json) ++ rest =
      '"' :: (body ++ ':' :: (layout.afterColon ++ (chars layout level json ++ rest))) := by
    simp [entryText, written]
  have colon : skipSpace (':' :: (layout.afterColon ++ (chars layout level json ++ rest))) =
      ':' :: (layout.afterColon ++ (chars layout level json ++ rest)) := rfl
  unfold readEntry
  rw [whole, skipSpace_append blank' rfl]
  simp only [read, Option.bind_eq_bind, Option.bind_some, colon,
    value layout.afterColon rest blanks.afterColon stops, rereadWithin?, rereadPair?]
  split
  · cases json.reread? <;> rfl
  · rfl

theorem readsAs_number (n : Number) :
    ReadsAs (readValue depth) (chars layout level) (rereadWithin? depth) (.number n) := by
  intro blank rest blank' stops
  have read := readScalar_number n stops
  obtain ⟨c, more, written, begins⟩ := n.head_chars
  have scalar : rereadWithin? depth (.number n) = number <$> n.reread? := if_pos (Nat.zero_le _)
  show readValue depth (blank ++ (n.chars ++ rest)) = _
  rw [scalar, Option.map_eq_map, Option.map_map]
  refine Eq.trans ?_ read
  rw [written]
  exact readValue_scalar blank' ⟨isSpace_of_begins begins, ne_of_begins begins (by decide),
    ne_of_begins begins (by decide)⟩ depth _

theorem readsAs_string (s : String) :
    ReadsAs (readValue depth) (chars layout level) (rereadWithin? depth) (.string s) := by
  intro blank rest blank' _
  obtain ⟨body, written, read⟩ := readString_quoted s rest
  show readValue depth (blank ++ (quoted s ++ rest)) = some (.string s, rest)
  rw [written, List.cons_append, readValue_scalar blank' (by decide) depth]
  show (readString (body ++ rest)).bind (fun taken => some (Json.string taken.1, taken.2)) = _
  rw [read]
  rfl

/-- An array is read as its items are, one level down. -/
theorem readsAs_array (blanks : layout.Blanks) {items : List Json}
    (each : ∀ depth, ∀ item ∈ items,
      ReadsAs (readValue depth) (chars layout (level + 1)) (rereadWithin? depth) item) :
    ReadsAs (readValue depth) (chars layout level) (rereadWithin? depth) (.array items) := by
  intro blank rest blank' _
  show readValue depth _ =
    (if itemsNesting items + 1 ≤ depth then array <$> rereadItems? items else none).map _
  rw [chars_array, List.cons_append]
  cases depth with
  | zero =>
    rw [readValue, skipSpace_append blank' rfl]
    rfl
  | succ depth =>
    have read := readContainer_inside (.inl rfl) (blanks.lineBreak (level + 1))
      (blanks.lineBreak level) (fun item _ => chars_begin item layout (level + 1)) (each depth) rest
    have within : items.mapM (rereadWithin? depth) = _ :=
      mapM_guarded (fun item : Json => item.nesting ≤ depth) reread? items
    rw [readValue, skipSpace_append blank' rfl]
    simp only [read, Nat.add_le_add_iff_right, itemsNesting_le, rereadItems?_eq, within]
    split
    · cases items.mapM reread? <;> rfl
    · rfl

/-- An object with distinct keys is read as its values are, one level down. -/
theorem readsAs_object (blanks : layout.Blanks) {entries : List (String × Json)}
    (distinct : Table.Distinct entries)
    (each : ∀ depth, ∀ entry ∈ entries,
      ReadsAs (readValue depth) (chars layout (level + 1)) (rereadWithin? depth) entry.2) :
    ReadsAs (readValue depth) (chars layout level) (rereadWithin? depth) (.object entries) := by
  intro blank rest blank' _
  show readValue depth _ =
    (if entriesNesting entries + 1 ≤ depth then object <$> rereadEntries? entries else none).map _
  rw [chars_object, List.cons_append]
  cases depth with
  | zero =>
    rw [readValue, skipSpace_append blank' rfl]
    rfl
  | succ depth =>
    have begins : ∀ entry ∈ entries, ∃ c more,
        entryText layout (level + 1) entry = c :: more ∧ isSpace c = false ∧ c ≠ '\x7d' :=
      fun entry _ => ⟨'"', _, rfl, rfl, by decide⟩
    have read := readContainer_inside (.inr rfl) (blanks.lineBreak (level + 1))
      (blanks.lineBreak level) begins
      (fun entry member => readsAs_entry blanks (each depth entry member)) rest
    rw [readValue, skipSpace_append blank' rfl]
    simp only [read, Nat.add_le_add_iff_right, entriesNesting_le, rereadEntries?_eq,
      mapM_guarded fun entry : String × Json => entry.2.nesting ≤ depth]
    split
    · cases again : entries.mapM rereadPair? with
      | none => rfl
      | some others =>
        -- the table of the entries holds them as they stand, since their keys are distinct
        have distinct : Table.Distinct others := by
          show (others.map (·.1)).Nodup
          rw [map_fst_of_mapM_rereadPair? again]
          exact distinct
        simp only [Option.map_some, Option.bind_eq_bind, Option.bind_some, distinct.ofEntries_eq]
        rfl
    · rfl

/-- **What is read of a document**, by induction on its parts. -/
theorem readsAs_value (blanks : layout.Blanks) {json : Json} (distinct : json.KeysDistinct) :
    ReadsAs (readValue depth) (chars layout level) (rereadWithin? depth) json := by
  induction distinct generalizing depth level with
  | null =>
    intro blank rest blank' _
    exact readValue_scalar blank' (by decide) depth _
  | bool b =>
    intro blank rest blank' _
    cases b <;> exact readValue_scalar blank' (by decide) depth _
  | number n => exact readsAs_number n
  | string s => exact readsAs_string s
  | array _ ih => exact readsAs_array blanks fun _ item member => ih item member
  | object distinct _ ih =>
    exact readsAs_object blanks distinct fun _ entry member => ih entry member

end Documents

/-- **The reader takes what the writer writes** as far as it goes: a text that nests too deep is
refused, and all others are read as the document but for its floats. -/
theorem parse?_text {layout : Layout} (blanks : layout.Blanks) {json : Json}
    (distinct : json.KeysDistinct) :
    parse? (json.render layout) = if json.nesting ≤ maxDepth then json.reread? else none := by
  have read := @readsAs_value layout maxDepth 0 blanks json distinct [] []
    (List.forall_mem_nil _) stops_nil
  rw [List.nil_append, List.append_nil] at read
  unfold parse? render
  rw [String.toList_ofList, read, rereadWithin?]
  split
  · cases json.reread? <;> rfl
  · rfl

/-- Documents are read again as themselves just if they are stable. -/
theorem reread?_eq_self {json : Json} (distinct : json.KeysDistinct) :
    json.reread? = some json ↔ json.Stable := by
  induction distinct with
  | null => exact iff_of_true rfl .null
  | bool b => exact iff_of_true rfl (.bool b)
  | number n => simp [reread?, Number.stable_iff]
  | string s => exact iff_of_true rfl (.string s)
  | @array items _ ih =>
    rw [stable_array, ← forall₂_congr ih, ← mapM_eq_self, reread?, rereadItems?_eq]
    simp
  | @object entries _ _ ih =>
    have entry : ∀ entry, rereadPair? entry = some entry ↔ entry.2.reread? = some entry.2 := by
      rintro ⟨key, json⟩
      simp [rereadPair?]
    rw [stable_object, ← forall₂_congr ih, ← forall₂_congr fun e _ => entry e, ← mapM_eq_self,
      reread?, rereadEntries?_eq]
    simp

/-- **The reader inverts the writer** where numbers are stable. -/
theorem parse?_render {layout : Layout} (blanks : layout.Blanks) {json : Json}
    (distinct : json.KeysDistinct) (stable : json.Stable) :
    parse? (json.render layout) = if json.nesting ≤ maxDepth then some json else none := by
  rw [parse?_text blanks distinct, (reread?_eq_self distinct).2 stable]

end Dossier.Json
