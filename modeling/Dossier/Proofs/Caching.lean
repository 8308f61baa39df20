import Mathlib.Data.List.Dedup
import Dossier.Cache

/-!
# What the identity cache holds

A cache that entities are put into one after the other holds each identifier's
latest entity (`Cache.get?_registerAll`). What is held under a key has that key for
its identifier, and there are as many entries as identifiers were put in.
-/

namespace Dossier

/-- The latest of some entities to have an identifier. -/
def Entity.latest? (schema : Schema) (entities : List Entity) (identifier : String) :
    Option Entity :=
  entities.reverse.find? fun e => e.identifier? schema = some identifier

namespace Entity

variable {schema : Schema} {entities : List Entity} {identifier : String}

theorem latest?_append (schema : Schema) (before after : List Entity) (identifier : String) :
    latest? schema (before ++ after) identifier =
      (latest? schema after identifier).or (latest? schema before identifier) := by
  rw [latest?, List.reverse_append, List.find?_append]
  rfl

/-- What is the latest under an identifier has it, and is one of the entities. -/
theorem latest?_eq_some {e : Entity} (h : latest? schema entities identifier = some e) :
    e ∈ entities ∧ e.identifier? schema = some identifier :=
  ⟨List.mem_reverse.1 (List.mem_of_find?_eq_some h), by simpa using List.find?_some h⟩

theorem latest?_eq_none :
    latest? schema entities identifier = none ↔
      ∀ e ∈ entities, e.identifier? schema ≠ some identifier := by
  simp [latest?, List.find?_eq_none]

theorem latest?_isSome :
    (latest? schema entities identifier).isSome ↔
      ∃ e ∈ entities, e.identifier? schema = some identifier := by
  simp [latest?, List.find?_isSome]

end Entity

namespace Cache

variable {schema : Schema} {cache : Cache}

theorem register_of_identifier {e : Entity} {identifier : String}
    (h : e.identifier? schema = some identifier) :
    cache.register schema e = ⟨cache.entries.insert identifier e⟩ := by
  simp only [register, put, Entity.requireIdentifier, h]
  rfl

theorem register_of_none {e : Entity} (h : e.identifier? schema = none) :
    cache.register schema e = cache := by
  simp only [register, put, Entity.requireIdentifier, h]
  rfl

@[simp] theorem get?_register (e : Entity) (identifier : String) :
    (cache.register schema e).get? identifier =
      if e.identifier? schema = some identifier then some e else cache.get? identifier := by
  cases h : e.identifier? schema with
  | none => simp [register_of_none h]
  | some key => simp [register_of_identifier h, get?]

/-! ## Entities put in one after the other -/

def registerAll (schema : Schema) (cache : Cache) (entities : List Entity) : Cache :=
  entities.foldl (fun cache e => cache.register schema e) cache

theorem registerAll_append (cache : Cache) (before after : List Entity) :
    registerAll schema cache (before ++ after) =
      registerAll schema (registerAll schema cache before) after :=
  List.foldl_append

/-- **The last write wins.** -/
theorem get?_registerAll (entities : List Entity) (identifier : String) :
    (registerAll schema cache entities).get? identifier =
      (Entity.latest? schema entities identifier).or (cache.get? identifier) := by
  induction entities generalizing cache with
  | nil => rfl
  | cons e entities ih =>
    show (registerAll schema (cache.register schema e) entities).get? identifier = _
    rw [ih, get?_register, ← List.singleton_append, Entity.latest?_append, Option.or_assoc]
    congr 1
    by_cases found : e.identifier? schema = some identifier <;>
      simp [Entity.latest?, found]

/-- Every key is the identifier of what is held under it. -/
def Keyed (schema : Schema) (cache : Cache) : Prop :=
  ∀ key e, (key, e) ∈ cache.entries → e.identifier? schema = some key

theorem keyed_registerAll (h : cache.Keyed schema) (entities : List Entity) :
    (registerAll schema cache entities).Keyed schema := by
  induction entities generalizing cache with
  | nil => exact h
  | cons e entities ih =>
    apply ih
    intro key held member
    change (key, held) ∈ (cache.register schema e).entries at member
    cases identified : e.identifier? schema with
    | none =>
      rw [register_of_none identified] at member
      exact h key held member
    | some identifier =>
      rw [register_of_identifier identified] at member
      rcases Table.mem_of_mem_insert member with ⟨rfl, rfl⟩ | before
      · exact identified
      · exact h key held before

theorem keys_registerAll (entities : List Entity) :
    (registerAll schema cache entities).entries.keys =
      (entities.filterMap (·.identifier? schema)).foldl
        (fun keys key => if key ∈ keys then keys else keys ++ [key]) cache.entries.keys := by
  induction entities generalizing cache with
  | nil => rfl
  | cons e entities ih =>
    show (registerAll schema (cache.register schema e) entities).entries.keys = _
    rw [ih, List.filterMap_cons]
    cases identified : e.identifier? schema with
    | none => rw [register_of_none identified]
    | some identifier => rw [register_of_identifier identified, Table.keys_insert, List.foldl_cons]

/-- Adding what is not there yet, key by key, gives each key once. -/
theorem foldl_keys (new : List String) {keys : List String} (nodup : keys.Nodup) :
    (new.foldl (fun keys key => if key ∈ keys then keys else keys ++ [key]) keys).Nodup ∧
      ∀ key, key ∈ new.foldl (fun keys key => if key ∈ keys then keys else keys ++ [key]) keys ↔
        key ∈ keys ∨ key ∈ new := by
  induction new generalizing keys with
  | nil => exact ⟨nodup, by simp⟩
  | cons key new ih =>
    rw [List.foldl_cons]
    by_cases there : key ∈ keys
    · rw [if_pos there]
      obtain ⟨distinct, members⟩ := ih nodup
      refine ⟨distinct, fun other => (members other).trans ?_⟩
      rw [List.mem_cons, ← or_assoc, or_congr_left (or_iff_left_of_imp fun same => same ▸ there)]
    · rw [if_neg there]
      have more : (keys ++ [key]).Nodup :=
        List.nodup_append.2 ⟨nodup, List.nodup_singleton key, fun other found _ last equal =>
          there (List.mem_singleton.1 last ▸ equal ▸ found)⟩
      obtain ⟨distinct, members⟩ := ih more
      refine ⟨distinct, fun other => (members other).trans ?_⟩
      rw [List.mem_append, List.mem_singleton, List.mem_cons, or_assoc]

/-- There is one entry for each identifier that was put in. -/
theorem size_registerAll (entities : List Entity) :
    (registerAll schema {} entities).size =
      (entities.filterMap (·.identifier? schema)).dedup.length := by
  obtain ⟨distinct, members⟩ :=
    foldl_keys (entities.filterMap (·.identifier? schema)) List.nodup_nil
  have perm : (registerAll schema {} entities).entries.keys.Perm
      (entities.filterMap (·.identifier? schema)).dedup := by
    rw [keys_registerAll]
    refine (List.perm_ext_iff_of_nodup distinct (List.nodup_dedup _)).2 fun key => ?_
    rw [members, List.mem_dedup]
    simp
  rw [← perm.length_eq, Table.keys, List.length_map]
  rfl

end Cache

end Dossier
