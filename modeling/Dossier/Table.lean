/-!
# Tables

A table is a list of entries under text keys, in the order in which the keys
first came. Putting a value under a key that is there replaces it in its place;
a new key goes to the end. The operations keep keys distinct, which `Distinct`
states: it is a predicate beside the data, since tables occur inside recursive
types.
-/

namespace Dossier

abbrev Table (α : Type) := List (String × α)

namespace Table

variable {α β : Type}

def keys (t : Table α) : List String := t.map (·.1)

/-- No key occurs twice. -/
def Distinct (t : Table α) : Prop := t.keys.Nodup

instance : DecidablePred (@Distinct α) := fun t => inferInstanceAs (Decidable t.keys.Nodup)

/-- The value under a key. -/
def get? : Table α → String → Option α
  | [], _ => none
  | (k, v) :: t, key => if k = key then some v else get? t key

def contains (t : Table α) (key : String) : Bool := (t.get? key).isSome

/-- Puts a value under a key: in place if the key is there, at the end if not. -/
def insert : Table α → String → α → Table α
  | [], key, value => [(key, value)]
  | (k, v) :: t, key, value => if k = key then (k, value) :: t else (k, v) :: insert t key value

/-- The table without the entry under a key; the others keep their order. -/
def erase (t : Table α) (key : String) : Table α := t.filter fun entry => entry.1 ≠ key

/-- The table with all of the entries put in, in order. -/
def insertAll (t : Table α) (entries : List (String × α)) : Table α :=
  entries.foldl (fun t (key, value) => t.insert key value) t

/-- The table of a list of entries: a repeated key keeps its first place and takes its last
value. -/
def ofEntries (entries : List (String × α)) : Table α := insertAll [] entries

@[simp] theorem get?_nil (key : String) : get? ([] : Table α) key = none := rfl

@[simp] theorem get?_insert (t : Table α) (key other : String) (value : α) :
    (t.insert key value).get? other = if key = other then some value else t.get? other := by
  induction t with
  | nil => simp [insert, get?]
  | cons entry t ih =>
    obtain ⟨k, v⟩ := entry
    by_cases same : k = key
    · subst same; by_cases found : k = other <;> simp [insert, get?, found]
    · by_cases found : k = other
      · subst found; simp [insert, get?, same, Ne.symm same]
      · simp [insert, get?, same, found, ih]

/-- Choosing entries by their keys chooses what is found. -/
theorem get?_filter (keep : String → Bool) (t : Table α) (key : String) :
    get? (t.filter fun entry => keep entry.1) key = if keep key then t.get? key else none := by
  induction t with
  | nil => simp
  | cons entry t ih =>
    obtain ⟨k, v⟩ := entry
    by_cases found : k = key
    · subst found
      by_cases kept : keep k = true
      · simp [get?, kept]
      · simp [kept, ih]
    · by_cases kept : keep k = true
      · simp [get?, kept, found, ih]
      · simp [get?, kept, found, ih]

@[simp] theorem get?_erase (t : Table α) (key other : String) :
    (t.erase key).get? other = if key = other then none else t.get? other := by
  rw [erase, get?_filter fun k => k ≠ key]
  by_cases same : key = other
  · simp [same]
  · simp [same, Ne.symm same]

theorem get?_append (s t : Table α) (key : String) :
    get? (s ++ t) key = (s.get? key).or (t.get? key) := by
  induction s with
  | nil => rfl
  | cons entry s ih =>
    obtain ⟨k, v⟩ := entry
    by_cases found : k = key
    · simp [get?, found]
    · simpa [get?, found] using ih

theorem get?_eq_none_iff {t : Table α} {key : String} : t.get? key = none ↔ key ∉ t.keys := by
  induction t with
  | nil => simp [keys]
  | cons entry t ih =>
    obtain ⟨k, v⟩ := entry
    by_cases found : k = key
    · simp [get?, keys, found]
    · simpa [get?, keys, found, Ne.symm found] using ih

theorem isSome_get?_iff {t : Table α} {key : String} : (t.get? key).isSome ↔ key ∈ t.keys := by
  rw [Option.isSome_iff_ne_none, ne_eq, get?_eq_none_iff, Decidable.not_not]

theorem mem_of_get? {t : Table α} {key : String} {value : α} (h : t.get? key = some value) :
    (key, value) ∈ t := by
  induction t with
  | nil => exact absurd h (by simp)
  | cons entry t ih =>
    obtain ⟨k, v⟩ := entry
    rw [get?] at h
    split at h
    · next same =>
      rw [← same, ← Option.some.inj h]
      exact List.mem_cons_self
    · exact List.mem_cons_of_mem _ (ih h)

theorem Distinct.get?_of_mem {t : Table α} (distinct : t.Distinct) {key : String} {value : α}
    (h : (key, value) ∈ t) : t.get? key = some value := by
  induction t with
  | nil => exact absurd h List.not_mem_nil
  | cons entry t ih =>
    obtain ⟨k, v⟩ := entry
    have parts := List.nodup_cons.1 distinct
    rcases List.mem_cons.1 h with same | later
    · obtain ⟨rfl, rfl⟩ := Prod.mk.inj same
      rw [get?, if_pos rfl]
    · have apart : k ≠ key := fun same =>
        parts.1 (List.mem_map.2 ⟨(key, value), later, same.symm⟩)
      rw [get?, if_neg apart]
      exact ih parts.2 later

theorem mem_of_mem_erase {t : Table α} {key : String} {entry : String × α}
    (h : entry ∈ t.erase key) : entry ∈ t := (List.mem_filter.1 h).1

/-- What is in a table after an entry was put in is that entry or was there before. -/
theorem mem_of_mem_insert {t : Table α} {key other : String} {value found : α}
    (h : (other, found) ∈ t.insert key value) :
    (other = key ∧ found = value) ∨ (other, found) ∈ t := by
  induction t with
  | nil => exact .inl (by simpa [insert] using h)
  | cons entry t ih =>
    obtain ⟨k, v⟩ := entry
    rw [insert] at h
    split at h
    · next same =>
      rcases List.mem_cons.1 h with head | later
      · exact .inl (by simp_all)
      · exact .inr (List.mem_cons_of_mem _ later)
    · rcases List.mem_cons.1 h with head | later
      · exact .inr (head ▸ List.mem_cons_self)
      · exact (ih later).imp_right (List.mem_cons_of_mem _)

/-- What all entries have that were there or are put in, all entries have then. -/
theorem forall_insertAll {P : α → Prop} {t : Table α} {entries : List (String × α)}
    (before : ∀ entry ∈ t, P entry.2) (new : ∀ entry ∈ entries, P entry.2) :
    ∀ entry ∈ t.insertAll entries, P entry.2 := by
  induction entries generalizing t with
  | nil => exact before
  | cons entry entries ih =>
    apply ih
    · intro other member
      rcases mem_of_mem_insert member with ⟨-, same⟩ | there
      · rw [same]
        exact new entry List.mem_cons_self
      · exact before other there
    · intro other later
      exact new other (List.mem_cons_of_mem _ later)

theorem insert_of_absent {t : Table α} {key : String} (absent : key ∉ t.keys) (value : α) :
    t.insert key value = t ++ [(key, value)] := by
  induction t with
  | nil => rfl
  | cons entry t ih =>
    obtain ⟨k, v⟩ := entry
    obtain ⟨apart, later⟩ := not_or.1 (fun h => absent (List.mem_cons.2 h))
    rw [insert, if_neg (Ne.symm apart), ih later, List.cons_append]

@[simp] theorem keys_insert (t : Table α) (key : String) (value : α) :
    (t.insert key value).keys = if key ∈ t.keys then t.keys else t.keys ++ [key] := by
  induction t with
  | nil => simp [insert, keys]
  | cons entry t ih =>
    obtain ⟨k, v⟩ := entry
    simp only [keys, List.map_cons, List.mem_cons] at ih ⊢
    by_cases same : k = key
    · simp [insert, same]
    · simp only [insert, same, if_false, List.map_cons, ih, Ne.symm same, false_or]
      by_cases found : key ∈ t.map (·.1) <;> simp [found]

/-! ## Distinct keys -/

theorem Distinct.insert {t : Table α} (h : t.Distinct) (key : String) (value : α) :
    (t.insert key value).Distinct := by
  unfold Distinct at *
  rw [keys_insert]
  split
  · exact h
  · next absent =>
    exact List.nodup_append.2 ⟨h, by simp, fun other found _ last equal =>
      absent (by simp_all)⟩

theorem distinct_ofEntries (entries : List (String × α)) : (ofEntries entries).Distinct := by
  suffices ∀ t : Table α, t.Distinct → (t.insertAll entries).Distinct from
    this [] List.nodup_nil
  induction entries with
  | nil => exact fun _ h => h
  | cons entry entries ih => exact fun t h => ih _ (h.insert entry.1 entry.2)

/-- Entries whose keys are distinct are the table that they make. -/
theorem Distinct.ofEntries_eq {entries : List (String × α)} (h : Distinct entries) :
    ofEntries entries = entries := by
  suffices ∀ t : Table α, Distinct (t ++ entries) → t.insertAll entries = t ++ entries from
    this [] h
  intro t distinct
  induction entries generalizing t with
  | nil => exact (List.append_nil t).symm
  | cons entry entries ih =>
    obtain ⟨key, value⟩ := entry
    have absent : key ∉ t.keys := by
      unfold Distinct keys at distinct
      rw [List.map_append, List.nodup_append] at distinct
      exact fun there => distinct.2.2 key there key (by simp) rfl
    show insertAll (t.insert key value) entries = _
    rw [insert_of_absent absent, ih (List.nodup_cons.1 h).2 _ (by simpa using distinct)]
    simp

end Table

end Dossier
