import Dossier.Proofs.Fitting

/-!
# Sure defaults

A default is sure if it gives a value whatever was supplied: a text, what is drawn
from a source, or the value of an earlier field that is sure to be set. Where all
defaults are sure, a construction that succeeds leaves no field with a default
unset (`EntityType.trials_filled`).
-/

namespace Dossier

/-- A default that is a text, drawn from a source, or the value of a field that is known to be
set. -/
def Default.isSure (known : List String) : Default → Bool
  | fixed (.string _) => true
  | generateId => true
  | now => true
  | sameAs name => known.contains name
  | _ => false

/-- All defaults of some fields are sure, where a field is known to be set after the earlier ones
if it is required or has a default. -/
def EntityType.sureDefaults : (known : List String) → List Field → Bool
  | _, [] => true
  | known, f :: fields =>
    f.default?.all (·.isSure known) &&
      sureDefaults (if f.isRequired || f.default?.isSome then f.name :: known else known) fields

section Sure

variable {ctx : Context} {builders : Builders} {owner : EntityType} {f : Field} {known : List String}
  {assigned : Mapping}

theorem Default.offers_of_isSure {P : Value → Prop} {Q : Entity → Prop}
    (carries : Value.Carries P Q) {default : Default} (sure : default.isSure known = true) :
    default.Offers ctx P := by
  cases default with
  | fixed value => cases value with
    | string s => exact carries.string s
    | _ => exact absurd sure (by simp [isSure])
  | computed compute => exact absurd sure (by simp [isSure])
  | deferred name => exact absurd sure (by simp [isSure])
  | _ => trivial

theorem EntityType.isSure_of_mem {fields : List Field} (sure : sureDefaults known fields = true)
    (member : f ∈ fields) {default : Default} (given : f.default? = some default) :
    ∃ known, default.isSure known = true := by
  induction fields generalizing known with
  | nil => exact absurd member List.not_mem_nil
  | cons g fields ih =>
    rw [sureDefaults, Bool.and_eq_true] at sure
    rcases List.mem_cons.1 member with rfl | later
    · rw [given] at sure
      exact ⟨known, sure.1⟩
    · exact ih sure.2 later

theorem Default.rawValue_isSome {default : Default} (sure : default.isSure known = true)
    (set : ∀ name ∈ known, (assigned.get? name).isSome) :
    (default.rawValue ctx owner assigned).Ensures (·.isSome) := by
  cases default with
  | fixed value => exact .pure rfl
  | generateId => exact .after fun _ => .pure rfl
  | now => exact .after fun _ => .pure rfl
  | sameAs name => exact .pure (set name (by simpa [isSure] using sure))
  | computed compute => exact absurd sure (by simp [isSure])
  | deferred name => exact absurd sure (by simp [isSure])

/-- A field is filled if something was supplied or its default is sure. -/
theorem Field.fill_isSome {raw? : Option Value}
    (some : raw?.isSome ∨ ∃ default, f.default? = some default ∧ default.isSure known = true)
    (set : ∀ name ∈ known, (assigned.get? name).isSome) :
    (f.fill ctx builders owner assigned raw?).Ensures (·.isSome) := by
  cases raw? with
  | some raw => exact .map fun _ _ _ _ _ => rfl
  | none =>
    obtain none | ⟨default, given, sure⟩ := some
    · exact absurd none (by simp)
    · simp only [fill, given]
      refine (default.rawValue_isSome sure set).bind ?_
      rintro (_ | raw) present
      · exact absurd present (by simp)
      · exact .map fun _ _ _ _ _ => rfl

/-- By induction on the fields: what is known to be set has been set by the earlier ones. -/
theorem EntityType.trials_filled {t : EntityType} {supplied : Mapping} {fields : List Field}
    (sure : sureDefaults known fields = true)
    (given : ∀ f ∈ fields, f.isRequired → (supplied.get? f.name).isSome)
    (set : ∀ name ∈ known, (assigned.get? name).isSome) {store : Store}
    (quiet : (t.trials ctx builders supplied fields assigned store).errors = []) :
    ∀ trial ∈ (t.trials ctx builders supplied fields assigned store).list,
      trial.field.default?.isSome → trial.outcome ≠ .ok none := by
  induction fields generalizing known assigned store with
  | nil => exact List.forall_mem_nil _
  | cons f fields ih =>
    rw [sureDefaults, Bool.and_eq_true] at sure
    have givenLater := fun g (member : g ∈ fields) => given g (List.mem_cons_of_mem _ member)
    -- a field that is known to be set from here on is filled
    have fill : f.isRequired ∨ f.default?.isSome →
        (f.fill ctx builders t assigned (supplied.get? f.name)).Ensures (·.isSome) := by
      rintro (required | defaulted)
      · exact Field.fill_isSome (.inl (given f List.mem_cons_self required)) set
      · obtain ⟨default, same⟩ := Option.isSome_iff_exists.1 defaulted
        exact Field.fill_isSome (.inr ⟨default, same, by simpa [same] using sure.1⟩) set
    rcases run : f.fill ctx builders t assigned (supplied.get? f.name) store with
      ⟨error | ⟨_ | value, calls⟩, after⟩
    · simp only [trials, run] at quiet
      exact absurd quiet (by simp [Trials.errors])
    · have unknown : ¬(f.isRequired ∨ f.default?.isSome) := fun sureOf =>
        absurd (fill sureOf _ _ _ _ run) (by simp)
      have same : (if f.isRequired || f.default?.isSome then f.name :: known else known) = known := by
        rw [if_neg (by simpa using unknown)]
      simp only [trials, run] at quiet ⊢
      intro trial member defaulted
      rcases List.mem_cons.1 member with rfl | among
      · exact absurd (.inr defaulted) unknown
      · exact ih (same ▸ sure.2) givenLater set (by simpa [Trials.errors] using quiet) trial among
          defaulted
    · simp only [trials, run] at quiet ⊢
      intro trial member defaulted
      rcases List.mem_cons.1 member with rfl | among
      · simp
      · refine ih sure.2 givenLater ?_ (by simpa [Trials.errors] using quiet) trial among defaulted
        intro name member
        rw [Table.get?_append, Option.isSome_or, Bool.or_eq_true]
        split at member
        · rcases List.mem_cons.1 member with rfl | before
          · exact .inr (by simp [Table.get?])
          · exact .inl (set name before)
        · exact .inl (set name member)

end Sure

end Dossier
