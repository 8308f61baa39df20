import Dossier.Entity.Operations
import Dossier.Proofs.Offering

/-!
# The outcome of construction

Construction tries every field and reports everything that is wrong at once. The
trials of the fields are written down here as a recursion over the fields, each of
which sees only what was supplied under its own name and the values of the fields
before it; the tag, the missing and the unexpected properties are read off what was
supplied. `EntityType.construct_run` says that construction comes to exactly these
errors in this order, and to the entity of the trials if there is none. What the trials
come to is told by the rules of `Field.Fills`, under which each field holds the coercion of
what it is offered (`EntityType.tries_iff`, `Entity.ofMapping_outcome`).
-/

namespace Dossier

/-- What trying one field came to. -/
structure Trial where
  field : Field
  outcome : Except EntityError (Option Value)

namespace Trial

/-- The value that the field is set to, under its name. -/
def value? (trial : Trial) : Option (String × Value) :=
  match trial.outcome with
  | .ok (some value) => some (trial.field.name, value)
  | _ => none

def error? (trial : Trial) : Option EntityError :=
  match trial.outcome with
  | .error error => some error
  | .ok _ => none

variable (f : Field)

@[simp] theorem value?_set (value : Value) :
    value? ⟨f, .ok (some value)⟩ = some (f.name, value) := rfl

@[simp] theorem value?_unset : value? ⟨f, .ok none⟩ = none := rfl

@[simp] theorem value?_rejected (error : EntityError) : value? ⟨f, .error error⟩ = none := rfl

@[simp] theorem error?_accepted (value : Option Value) : error? ⟨f, .ok value⟩ = none := rfl

@[simp] theorem error?_rejected (error : EntityError) :
    error? ⟨f, .error error⟩ = some error := rfl

end Trial

/-- The trials of some fields, the hook calls that the successful ones left, and the store
after them. -/
structure Trials where
  list : List Trial
  calls : List HookCall
  store : Store

namespace Trials

/-- The values of the fields that were set. -/
def values (trials : Trials) : Mapping := trials.list.filterMap Trial.value?

/-- The errors of the fields that were rejected. -/
def errors (trials : Trials) : List EntityError := trials.list.filterMap Trial.error?

end Trials

namespace EntityType

/-! ## What the errors should be -/

/-- Tries fields one after the other, given the values of the fields before them. -/
def trials (ctx : Context) (builders : Builders) (t : EntityType) (supplied : Mapping) :
    List Field → (assigned : Mapping) → Store → Trials
  | [], _, store => { list := [], calls := [], store }
  | f :: fields, assigned, store =>
    match f.fill ctx builders t assigned (supplied.get? f.name) store with
    | (.error error, store) =>
      let later := t.trials ctx builders supplied fields assigned store
      { later with list := ⟨f, .error error⟩ :: later.list }
    | (.ok (none, calls), store) =>
      let later := t.trials ctx builders supplied fields assigned store
      { later with list := ⟨f, .ok none⟩ :: later.list, calls := calls ++ later.calls }
    | (.ok (some value, calls), store) =>
      let later := t.trials ctx builders supplied fields (assigned ++ [(f.name, value)]) store
      { later with list := ⟨f, .ok (some value)⟩ :: later.list, calls := calls ++ later.calls }

/-- A supplied tag that is no declared field and not the tag of the type. -/
def tagErrors (t : EntityType) (supplied : Mapping) : List EntityError :=
  match t.separateTag? with
  | none => []
  | some tag =>
    match supplied.get? tag.key with
    | none => []
    | some raw =>
      if raw.string? = some tag.value then []
      else [.invalidProperty t.name tag.key (.notEqual tag.value)]

/-- The required ones of some fields that nothing was supplied for. -/
def missingOf (supplied : Mapping) (fields : List Field) : List String :=
  (fields.filter fun f => f.isRequired && (supplied.get? f.name).isNone).map (·.name)

def missingErrors (t : EntityType) (supplied : Mapping) : List EntityError :=
  if missingOf supplied t.fields = [] then []
  else [.missingProperties t.name (missingOf supplied t.fields)]

/-- What was supplied under keys that are neither declared fields nor that of the tag. -/
def undeclared (t : EntityType) (supplied : Mapping) : Mapping :=
  supplied.filter fun entry =>
    (t.field? entry.1).isNone && t.separateTag?.all fun tag => entry.1 ≠ tag.key

def unexpectedErrors (ctx : Context) (t : EntityType) (supplied : Mapping) : List EntityError :=
  if ctx.keepsExtras t ∨ t.undeclared supplied = [] then []
  else [.unexpectedProperties t.name (t.undeclared supplied).keys]

/-- All that is wrong with what was supplied: the tag, the rejected fields, the missing
properties and the unexpected ones. -/
def complaints (ctx : Context) (t : EntityType) (supplied : Mapping) (trials : Trials) :
    List EntityError :=
  t.tagErrors supplied ++ trials.errors ++ t.missingErrors supplied ++
    t.unexpectedErrors ctx supplied

/-- The entity that construction is to come to. -/
def complete (ctx : Context) (type : TypeKey) (supplied : Mapping) (trials : Trials) : Entity where
  typeKey := type
  values := trials.values
  extras := if ctx.keepsExtras (ctx.typeOf type) then (ctx.typeOf type).undeclared supplied else []

theorem field?_eq_none_iff {t : EntityType} {name : String} :
    t.field? name = none ↔ name ∉ t.fields.map (·.name) := by
  simp [field?, List.find?_eq_none]

theorem mem_of_field? {t : EntityType} {name : String} {f : Field} (h : t.field? name = some f) :
    f ∈ t.fields ∧ f.name = name :=
  ⟨List.mem_of_find?_eq_some h, by simpa using List.find?_some h⟩

/-- A field is found by its name, since names are distinct. -/
theorem field?_of_mem {t : EntityType} {f : Field} (member : f ∈ t.fields) :
    t.field? f.name = some f := by
  have names := t.distinct
  unfold field?
  generalize t.fields = fields at member names
  induction fields with
  | nil => exact absurd member List.not_mem_nil
  | cons g fields ih =>
    obtain ⟨apart, later⟩ := List.nodup_cons.1 names
    rcases List.mem_cons.1 member with rfl | among
    · exact List.find?_cons_of_pos (by simp)
    · have other : g.name ≠ f.name := fun same =>
        apart (List.mem_map.2 ⟨f, among, same.symm⟩)
      rw [List.find?_cons_of_neg (by simpa using other)]
      exact ih among later

theorem eq_of_name_eq {t : EntityType} {f g : Field} (declared : f ∈ t.fields)
    (other : g ∈ t.fields) (same : f.name = g.name) : f = g := by
  have found := field?_of_mem other
  rw [← same, field?_of_mem declared] at found
  exact Option.some.inj found

theorem ne_of_undeclared {t : EntityType} {name : String} (undeclared : t.field? name = none)
    {f : Field} (declared : f ∈ t.fields) : f.name ≠ name := by
  rintro rfl
  exact field?_eq_none_iff.1 undeclared (List.mem_map_of_mem declared)

theorem field?_separateTag {t : EntityType} {tag : TypeTag} (h : t.separateTag? = some tag) :
    t.field? tag.key = none := by
  have absent := (Option.filter_eq_some_iff.1 h).2
  rwa [Option.isNone_iff_eq_none] at absent

/-- The key of a separate tag is the name of no field. -/
theorem ne_separateTag {t : EntityType} {tag : TypeTag} (h : t.separateTag? = some tag)
    {f : Field} (member : f ∈ t.fields) : f.name ≠ tag.key :=
  ne_of_undeclared (field?_separateTag h) member

end EntityType

namespace Field

variable {ctx : Context} {builders : Builders} {owner : EntityType} {f : Field} {assigned : Mapping}

theorem default?_of_isRequired (h : f.isRequired = true) : f.default? = none := by
  unfold isRequired at h
  unfold default?
  split at h
  · next required => rw [required]
  · exact absurd h (by simp)

/-- Nothing fills a required field that nothing was supplied for. -/
theorem fill_required (h : f.isRequired = true) :
    f.fill ctx builders owner assigned none = pure none := by
  simp only [fill, default?_of_isRequired h]

/-- What was supplied is coerced or refused, but never left out. -/
theorem fill_supplied_ne {raw : Value} {store after : Store} {calls : List HookCall} :
    f.fill ctx builders owner assigned (some raw) store ≠ (.ok (none, calls), after) := by
  intro run
  rw [fill, map_eq_pure_bind] at run
  obtain ⟨value, _, _, _, _, given, -⟩ := Build.bind_eq_ok run
  rw [Build.pure_run] at given
  simp at given

end Field

theorem EntityError.combine_eq_none {errors : List EntityError}
    (h : EntityError.combine errors = none) : errors = [] := by
  rcases errors with _ | ⟨error, _ | ⟨second, more⟩⟩
  · rfl
  · exact absurd h (by simp [combine])
  · exact absurd h (by simp [combine])

/-! ## The run of construction -/

namespace EntityType

variable {ctx : Context} {builders : Builders} {t : EntityType} {supplied : Mapping}

theorem missingOf_cons (supplied : Mapping) (f : Field) (fields : List Field) :
    missingOf supplied (f :: fields) =
      (if f.isRequired ∧ supplied.get? f.name = none then [f.name] else []) ++
        missingOf supplied fields := by
  unfold missingOf
  by_cases required : f.isRequired = true <;> by_cases given : supplied.get? f.name = none <;>
    simp [required, given]

/-- Nothing required is missing if something was supplied for all that is required. -/
theorem supplied_of_missingErrors (h : t.missingErrors supplied = []) {f : Field}
    (declared : f ∈ t.fields) (required : f.isRequired = true) :
    (supplied.get? f.name).isSome := by
  have none : missingOf supplied t.fields = [] := by
    unfold missingErrors at h
    split at h
    · assumption
    · exact absurd h (by simp)
  rw [missingOf, List.map_eq_nil_iff, List.filter_eq_nil_iff] at none
  simpa [required, Option.isSome_iff_ne_none] using none f declared

theorem mem_undeclared {entry : String × Value} (h : entry ∈ t.undeclared supplied) :
    entry ∈ supplied ∧ t.field? entry.1 = none := by
  obtain ⟨member, apart⟩ := List.mem_filter.1 h
  rw [Bool.and_eq_true, Option.isNone_iff_eq_none] at apart
  exact ⟨member, apart.1⟩

/-- Nothing is missing of fields if something was supplied for those of them that are required. -/
theorem missingOf_eq_nil {fields : List Field}
    (offered : ∀ f ∈ fields, f.isRequired → (supplied.get? f.name).isSome) :
    missingOf supplied fields = [] := by
  rw [missingOf, List.map_eq_nil_iff, List.filter_eq_nil_iff]
  intro f member
  cases required : f.isRequired with
  | false => simp
  | true => simpa [Option.isSome_iff_ne_none] using offered f member required

/-- Whether a name is neither that of a field nor the key of the tag. -/
def isCustom (t : EntityType) (name : String) : Bool :=
  (t.field? name).isNone && t.separateTag?.all fun tag => name ≠ tag.key

theorem isCustom_iff {name : String} :
    t.isCustom name = true ↔
      t.field? name = none ∧ ∀ tag, t.separateTag? = some tag → name ≠ tag.key := by
  unfold isCustom
  cases t.separateTag? <;> simp

theorem isCustom_of_mem {f : Field} (declared : f ∈ t.fields) : t.isCustom f.name = false := by
  rw [isCustom, field?_of_mem declared]
  rfl

/-- One field tried: the run of filling it decides how far the trial gets. -/
theorem tryField_run (ctx : Context) (builders : Builders) (t : EntityType) (progress : Progress)
    (f : Field) (store : Store) :
    t.tryField ctx builders progress f store =
      match f.fill ctx builders t progress.values (progress.rest.get? f.name) store with
      | (.error error, after) =>
        (.ok ({ progress with
          rest := progress.rest.erase f.name, errors := progress.errors ++ [error] }, []), after)
      | (.ok (none, calls), after) =>
        (.ok ({ progress with
          rest := progress.rest.erase f.name
          missing := progress.missing ++ if f.isRequired then [f.name] else [] }, calls), after)
      | (.ok (some value, calls), after) =>
        (.ok ({ progress with
          rest := progress.rest.erase f.name
          values := progress.values.insert f.name value }, calls), after) := by
  unfold tryField
  rcases run : f.fill ctx builders t progress.values (progress.rest.get? f.name) store with
    ⟨error | ⟨_ | value, calls⟩, after⟩
  · simp only [Build.bind_run_ok (Build.attempt_run_error run), Build.pure_run, List.append_nil]
  · by_cases required : f.isRequired = true <;>
      simp [Build.bind_run_ok (Build.attempt_run_ok run), Build.pure_run, required]
  · simp only [Build.bind_run_ok (Build.attempt_run_ok run), Build.pure_run, List.append_nil]

/-- The fields tried one after the other: by induction on the fields, from any state in which
none of them has been taken from what was supplied. -/
theorem foldlM_tryField_run (ctx : Context) (builders : Builders) (t : EntityType)
    (supplied : Mapping) (fields : List Field) (progress : Progress) (store : Store)
    (names : (fields.map (·.name)).Nodup)
    (offered : ∀ f ∈ fields, progress.rest.get? f.name = supplied.get? f.name)
    (fresh : ∀ f ∈ fields, f.name ∉ progress.values.keys) :
    fields.foldlM (t.tryField ctx builders) progress store =
      let trials := t.trials ctx builders supplied fields progress.values store
      (.ok ({
        rest := progress.rest.filter fun entry => entry.1 ∉ fields.map (·.name)
        values := progress.values ++ trials.values
        errors := progress.errors ++ trials.errors
        missing := progress.missing ++ missingOf supplied fields }, trials.calls),
        trials.store) := by
  induction fields generalizing progress store with
  | nil =>
    have all : progress.rest.filter (fun _ => true) = progress.rest :=
      List.filter_eq_self.2 fun _ _ => rfl
    simp [trials, Trials.values, Trials.errors, missingOf, Build.pure_run, all]
  | cons f fields ih =>
    obtain ⟨apart, later⟩ := List.nodup_cons.1 names
    have other : ∀ g ∈ fields, f.name ≠ g.name := by
      intro g member same
      exact apart (List.mem_map.2 ⟨g, member, same.symm⟩)
    have keepOffered : ∀ g ∈ fields,
        Table.get? (progress.rest.erase f.name) g.name = supplied.get? g.name := by
      intro g member
      rw [Table.get?_erase, if_neg (other g member), offered g (List.mem_cons_of_mem _ member)]
    have keepFresh : ∀ g ∈ fields, g.name ∉ progress.values.keys := by
      intro g member
      exact fresh g (List.mem_cons_of_mem _ member)
    -- taking the fields one by one leaves what taking them all at once does
    have taken : (progress.rest.erase f.name).filter (fun entry => entry.1 ∉ fields.map (·.name)) =
        progress.rest.filter fun entry => entry.1 ∉ (f :: fields).map (·.name) := by
      rw [Table.erase, List.filter_filter]
      refine List.filter_congr fun entry _ => ?_
      rw [Bool.eq_iff_iff]
      simp only [Bool.and_eq_true, decide_eq_true_eq, List.map_cons, List.mem_cons, not_or]
      exact and_comm
    have step := t.tryField_run ctx builders progress f store
    rw [offered f List.mem_cons_self] at step
    rw [List.foldlM_cons, trials, missingOf_cons]
    rcases run : f.fill ctx builders t progress.values (supplied.get? f.name) store with
      ⟨error | ⟨_ | value, calls⟩, after⟩
    all_goals rw [run] at step
    -- refused, left unset or set; what was supplied to a field is never left unset
    · have given : ¬(f.isRequired ∧ supplied.get? f.name = none) := by
        rintro ⟨required, nothing⟩
        rw [nothing, Field.fill_required required] at run
        exact absurd (Prod.mk.inj run).1 (by simp)
      have tail := ih { progress with
        rest := progress.rest.erase f.name, errors := progress.errors ++ [error] } after
        later keepOffered keepFresh
      rw [taken] at tail
      rw [Build.bind_run_ok step, tail]
      simp [Trials.values, Trials.errors, List.filterMap_cons, given]
    · have tail := ih { progress with
        rest := progress.rest.erase f.name
        missing := progress.missing ++ if f.isRequired then [f.name] else [] } after
        later keepOffered keepFresh
      have nothing : supplied.get? f.name = none := by
        cases given : supplied.get? f.name with
        | none => rfl
        | some raw => exact absurd (given ▸ run) Field.fill_supplied_ne
      rw [taken] at tail
      rw [Build.bind_run_ok step, tail]
      simp [Trials.values, Trials.errors, List.filterMap_cons, nothing]
    · have given : ¬(f.isRequired ∧ supplied.get? f.name = none) := by
        rintro ⟨required, nothing⟩
        rw [nothing, Field.fill_required required] at run
        exact absurd (Prod.mk.inj run).1 (by simp)
      -- the name is new, so the value goes behind those of the earlier fields
      have added := Table.insert_of_absent (fresh f List.mem_cons_self) value
      have stillFresh : ∀ g ∈ fields,
          g.name ∉ Table.keys (progress.values ++ [(f.name, value)]) := by
        intro g member
        rw [Table.keys, List.map_append, List.mem_append, not_or]
        exact ⟨keepFresh g member, by simpa using Ne.symm (other g member)⟩
      have tail := ih { progress with
        rest := progress.rest.erase f.name
        values := progress.values ++ [(f.name, value)] } after later keepOffered stillFresh
      rw [taken] at tail
      rw [Build.bind_run_ok step, added, tail]
      simp [Trials.values, Trials.errors, List.filterMap_cons, given]

/-- Taking the tag leaves the declared fields to be tried. -/
theorem takeTag_eq (t : EntityType) (supplied : Mapping) :
    t.takeTag supplied = {
      rest := supplied.filter fun entry => t.separateTag?.all fun tag => entry.1 ≠ tag.key
      errors := t.tagErrors supplied } := by
  unfold takeTag tagErrors
  -- without a tag of its own a type takes nothing, and with one the entry under its key
  cases t.separateTag? with
  | none =>
    have all : supplied.filter (fun _ => true) = supplied := List.filter_eq_self.2 fun _ _ => rfl
    simp [all]
  | some tag =>
    cases given : supplied.get? tag.key with
    | none =>
      have absent := Table.get?_eq_none_iff.1 given
      have all : supplied.filter (fun entry => (some tag).all fun tag => entry.1 ≠ tag.key) =
          supplied := by
        refine List.filter_eq_self.2 fun entry member => ?_
        have other : entry.1 ≠ tag.key := fun same => absent (same ▸ List.mem_map_of_mem member)
        simpa using other
      simp only [given, all]
    | some raw =>
      by_cases same : raw.string? = some tag.value <;> simp [given, same, Table.erase]

/-- What the fields are offered of what was supplied: all of it, since none is the tag. -/
theorem get?_takeTag {f : Field} (member : f ∈ t.fields) :
    Table.get? (t.takeTag supplied).rest f.name = supplied.get? f.name := by
  rw [takeTag_eq]
  cases found : t.separateTag? with
  | none => exact (Table.get?_filter (fun _ => true) supplied f.name).trans (if_pos rfl)
  | some tag =>
    refine (Table.get?_filter (fun key => key ≠ tag.key) supplied f.name).trans (if_pos ?_)
    simpa using ne_separateTag found member

/-- What neither the tag nor a field has taken is what is not declared. -/
theorem filter_takeTag (t : EntityType) (supplied : Mapping) :
    (t.takeTag supplied).rest.filter (fun entry => entry.1 ∉ t.fields.map (·.name)) =
      t.undeclared supplied := by
  rw [takeTag_eq, undeclared, List.filter_filter]
  refine List.filter_congr fun entry _ => ?_
  rw [Bool.eq_iff_iff]
  simp only [Bool.and_eq_true, decide_eq_true_eq, Option.isNone_iff_eq_none, field?_eq_none_iff]

/-- Where construction stands when all fields have been tried. -/
def tried (t : EntityType) (supplied : Mapping) (trials : Trials) : Progress where
  rest := t.undeclared supplied
  values := trials.values
  errors := t.tagErrors supplied ++ trials.errors
  missing := missingOf supplied t.fields

theorem errorsOf_tried (ctx : Context) (t : EntityType) (supplied : Mapping) (trials : Trials) :
    t.errorsOf ctx (t.tried supplied trials) = t.complaints ctx supplied trials := rfl

theorem foldlM_takeTag_run (ctx : Context) (builders : Builders) (t : EntityType)
    (supplied : Mapping) (store : Store) :
    t.fields.foldlM (t.tryField ctx builders) (t.takeTag supplied) store =
      let trials := t.trials ctx builders supplied t.fields [] store
      (.ok (t.tried supplied trials, trials.calls), trials.store) := by
  have noValues : (t.takeTag supplied).values = [] := by rw [takeTag_eq]
  have noneMissing : (t.takeTag supplied).missing = [] := by rw [takeTag_eq]
  have tagErrors : (t.takeTag supplied).errors = t.tagErrors supplied := by rw [takeTag_eq]
  rw [foldlM_tryField_run ctx builders t supplied t.fields (t.takeTag supplied) store t.distinct
    (fun _ => get?_takeTag) (by simp [noValues, Table.keys]), filter_takeTag, noValues,
    noneMissing, tagErrors]
  rfl

/-- **The run of construction.** It comes to the complaints, or to the entity of the trials if
there are none. -/
theorem construct_run (ctx : Context) (builders : Builders) (type : TypeKey) (supplied : Mapping)
    (store : Store) :
    construct ctx builders type supplied store =
      let t := ctx.typeOf type
      let trials := t.trials ctx builders supplied t.fields [] store
      match EntityError.combine (t.complaints ctx supplied trials) with
      | some error => (.error error, trials.store)
      | none =>
        let e := complete ctx type supplied trials
        (.ok (e, trials.calls ++ t.hookCalls e), trials.store) := by
  unfold construct
  rw [Build.bind_run_ok (foldlM_takeTag_run ctx builders (ctx.typeOf type) supplied store)]
  dsimp only
  rw [errorsOf_tried]
  cases EntityError.combine (complaints ctx (ctx.typeOf type) supplied _) with
  | some error => rfl
  | none =>
    simp only [Build.leave_run]
    rfl

/-- A construction that succeeds had nothing to complain of, and gives the entity of the trials. -/
theorem construct_ok {type : TypeKey} {store after : Store} {e : Entity} {calls : List HookCall}
    (run : construct ctx builders type supplied store = (.ok (e, calls), after)) :
    let t := ctx.typeOf type
    let trials := t.trials ctx builders supplied t.fields [] store
    t.complaints ctx supplied trials = [] ∧ e = complete ctx type supplied trials ∧
      after = trials.store := by
  rw [construct_run] at run
  dsimp only at run ⊢
  split at run
  · exact absurd (Prod.mk.inj run).1 (by simp)
  · next quiet =>
    obtain ⟨given, last⟩ := Prod.mk.inj run
    refine ⟨EntityError.combine_eq_none quiet, ?_, last.symm⟩
    exact (Prod.mk.inj (Except.ok.inj given)).1.symm

/-- Where the trials get to goes by what filling the first field comes to, hook calls left aside. -/
theorem trials_cons (ctx : Context) (builders : Builders) (t : EntityType) (m : Mapping)
    (f : Field) (fields : List Field) (assigned : Mapping) (store : Store) :
    let tried := (f.fill ctx builders t assigned (m.get? f.name)).bare store
    let later := t.trials ctx builders m fields
      (assigned ++ (Trial.value? ⟨f, tried.1⟩).toList) tried.2
    (t.trials ctx builders m (f :: fields) assigned store).list = ⟨f, tried.1⟩ :: later.list ∧
      (t.trials ctx builders m (f :: fields) assigned store).store = later.store := by
  rw [trials, Build.bare]
  rcases f.fill ctx builders t assigned (m.get? f.name) store with
    ⟨error | ⟨_ | value, calls⟩, after⟩ <;> simp [Except.map]

/-- The trials of some fields by the rules: each field is filled given the values of those before it,
a field that was rejected having none. -/
inductive Tries (ctx : Context) (builders : Builders) (t : EntityType) (supplied : Mapping) :
    List Field → (assigned : Mapping) → Store → List Trial → Store → Prop where
  | nil {assigned : Mapping} {store : Store} :
    Tries ctx builders t supplied [] assigned store [] store
  | cons {f : Field} {fields : List Field} {assigned : Mapping} {store between after : Store}
      {outcome : Except EntityError (Option Value)} {later : List Trial}
      (filled : f.Fills ctx t builders assigned (supplied.get? f.name) store outcome between)
      (rest : Tries ctx builders t supplied fields
        (assigned ++ (Trial.value? ⟨f, outcome⟩).toList) between later after) :
      Tries ctx builders t supplied (f :: fields) assigned store (⟨f, outcome⟩ :: later) after

/-- The rules allow the trials that are made, and no others. -/
theorem tries_iff {fields : List Field} {assigned : Mapping} {store after : Store}
    {list : List Trial} :
    t.Tries ctx builders supplied fields assigned store list after ↔
      (t.trials ctx builders supplied fields assigned store).list = list ∧
        (t.trials ctx builders supplied fields assigned store).store = after := by
  induction fields generalizing assigned store list with
  | nil =>
    constructor
    · rintro ⟨⟩
      exact ⟨rfl, rfl⟩
    · rintro ⟨rfl, rfl⟩
      exact .nil
  | cons f fields ih =>
    -- one field is tried as the rules say, and the rest by the induction
    obtain ⟨first, last⟩ := trials_cons ctx builders t supplied f fields assigned store
    rw [first, last]
    constructor
    · intro tries
      cases tries with
      | cons filled rest =>
        rw [Field.fills_iff.1 filled]
        exact (ih.1 rest).imp_left (congrArg _)
    · rintro ⟨rfl, rfl⟩
      exact .cons (Field.fills_iff.2 rfl) (ih.2 ⟨rfl, rfl⟩)

/-! ## What an entity holds -/

/-- Every field is tried once, in the order of declaration. -/
theorem trials_fields (ctx : Context) (builders : Builders) (t : EntityType) (supplied : Mapping)
    (fields : List Field) (assigned : Mapping) (store : Store) :
    (t.trials ctx builders supplied fields assigned store).list.map (·.field) = fields := by
  induction fields generalizing assigned store with
  | nil => rfl
  | cons f fields ih =>
    rw [trials]
    split <;> exact congrArg (f :: ·) (ih _ _)

theorem trials_names (ctx : Context) (builders : Builders) (t : EntityType) (supplied : Mapping)
    (fields : List Field) (assigned : Mapping) (store : Store) :
    (t.trials ctx builders supplied fields assigned store).list.map (·.field.name) =
      fields.map (·.name) := by
  have names := congrArg (List.map Field.name)
    (trials_fields ctx builders t supplied fields assigned store)
  rwa [List.map_map] at names

end EntityType

namespace Trials

theorem exists_of_mem_values {list : List Trial} {name : String} {value : Value}
    (h : (name, value) ∈ list.filterMap Trial.value?) :
    ∃ trial ∈ list, trial.outcome = .ok (some value) ∧ trial.field.name = name := by
  obtain ⟨⟨f, outcome⟩, tried, gave⟩ := List.mem_filterMap.1 h
  rcases outcome with error | (_ | held)
  · simp at gave
  · simp at gave
  · obtain ⟨rfl, rfl⟩ := Prod.mk.inj (Option.some.inj gave)
    exact ⟨_, tried, rfl, rfl⟩

/-- Without errors every field was accepted. -/
theorem accepted_of_errors {list : List Trial} (h : list.filterMap Trial.error? = [])
    {trial : Trial} (member : trial ∈ list) : ∃ held, trial.outcome = .ok held := by
  obtain ⟨f, outcome⟩ := trial
  cases outcome with
  | ok held => exact ⟨held, rfl⟩
  | error error => exact absurd (List.filterMap_eq_nil_iff.1 h _ member) (by simp)

theorem keys_values_subset (list : List Trial) :
    Table.keys (list.filterMap Trial.value?) ⊆ list.map (·.field.name) := by
  intro name member
  obtain ⟨⟨_, value⟩, found, rfl⟩ := List.mem_map.1 member
  obtain ⟨trial, tried, -, same⟩ := exists_of_mem_values found
  exact List.mem_map.2 ⟨trial, tried, same⟩

/-- The fields of a type are tried under distinct names. -/
theorem nodup_names {t : EntityType} {list : List Trial} (fields : list.map (·.field) = t.fields) :
    (list.map (·.field.name)).Nodup := by
  have distinct := t.distinct
  rwa [← fields, List.map_map] at distinct

/-- Under the name of a field that was not rejected is what its trial came to. -/
theorem get?_values {list : List Trial} (names : (list.map (·.field.name)).Nodup) {trial : Trial}
    (member : trial ∈ list) {held : Option Value} (accepted : trial.outcome = .ok held) :
    Table.get? (list.filterMap Trial.value?) trial.field.name = held := by
  induction list with
  | nil => exact absurd member List.not_mem_nil
  | cons head list ih =>
    obtain ⟨apart, later⟩ := List.nodup_cons.1 names
    rcases List.mem_cons.1 member with rfl | among
    · obtain ⟨f, outcome⟩ := trial
      obtain rfl : outcome = .ok held := accepted
      cases held with
      | none =>
        -- no later trial is of a field of that name
        have absent : f.name ∉ Table.keys (list.filterMap Trial.value?) :=
          fun there => apart (keys_values_subset list there)
        exact Table.get?_eq_none_iff.2 absent
      | some value => simp [Table.get?]
    · have other : head.field.name ≠ trial.field.name :=
        fun same => apart (List.mem_map.2 ⟨trial, among, same.symm⟩)
      rcases head with ⟨f, error | (_ | value)⟩
      · exact ih later among
      · exact ih later among
      · simpa [Table.get?, other] using ih later among

end Trials

namespace Entity

theorem ofMapping_run (ctx : Context) (type : TypeKey) (supplied : Mapping) (store : Store) :
    ((ofMapping ctx type supplied).run.run store).1 =
      let t := ctx.typeOf type
      let trials := t.trials ctx ctx.builders supplied t.fields [] store
      match EntityError.combine (t.complaints ctx supplied trials) with
      | some error => .error error
      | none => .ok (EntityType.complete ctx type supplied trials) := by
  have run := EntityType.construct_run ctx ctx.builders type supplied store
  rw [← Context.build_eq] at run
  unfold ofMapping
  dsimp only at run ⊢
  generalize (ctx.typeOf type).trials ctx ctx.builders supplied (ctx.typeOf type).fields []
    store = trials at run ⊢
  cases told : EntityError.combine ((ctx.typeOf type).complaints ctx supplied trials) with
  | some error =>
    simp only [told] at run ⊢
    rw [Build.finish_run_error run]
  | none =>
    simp only [told] at run ⊢
    rw [Build.finish_run_ok run]

/-- **The outcome of construction.** There is one way to try the fields by the rules, each once and
in the order of declaration. What is wrong is told in the order of tag, fields, missing and
unexpected properties; if nothing is, the entity holds what the trials came to. -/
theorem ofMapping_outcome (ctx : Context) (type : TypeKey) (supplied : Mapping) (store : Store) :
    let t := ctx.typeOf type
    ∃ trials after,
      t.Tries ctx ctx.builders supplied t.fields [] store trials after ∧
      (∀ others left, t.Tries ctx ctx.builders supplied t.fields [] store others left →
        others = trials ∧ left = after) ∧
      trials.map (·.field) = t.fields ∧
      (∀ trial ∈ trials, ∀ held, trial.outcome = .ok held →
        Table.get? (trials.filterMap Trial.value?) trial.field.name = held) ∧
      ((ofMapping ctx type supplied).run.run store).1 =
        match t.tagErrors supplied ++ trials.filterMap Trial.error? ++ t.missingErrors supplied ++
          t.unexpectedErrors ctx supplied with
        | [] => .ok {
            typeKey := type
            values := trials.filterMap Trial.value?
            extras := if ctx.keepsExtras t then t.undeclared supplied else [] }
        | [error] => .error error
        | errors => .error (.multiple errors) := by
  intro t
  refine ⟨_, _, EntityType.tries_iff.2 ⟨rfl, rfl⟩, ?_, EntityType.trials_fields .., ?_, ?_⟩
  · intro others left tries
    obtain ⟨rfl, rfl⟩ := EntityType.tries_iff.1 tries
    exact ⟨rfl, rfl⟩
  · intro trial member held accepted
    exact Trials.get?_values (Trials.nodup_names (EntityType.trials_fields ..)) member accepted
  · rw [ofMapping_run]
    dsimp only
    unfold EntityType.complaints Trials.errors
    show _ = match EntityType.tagErrors t supplied ++ _ ++ _ ++ _ with
      | [] => _
      | [error] => _
      | errors => _
    generalize EntityType.tagErrors _ _ ++ _ ++ _ ++ _ = complaints
    rcases complaints with _ | ⟨error, _ | ⟨second, more⟩⟩ <;> rfl

end Entity

namespace Outcome

/-- A parcel has a tag of its own; its spare weight is its weight unless supplied. -/
def parcelType : EntityType where
  name := "Parcel"
  typeName := "parcel"
  tag := some ⟨"kind", "Parcel"⟩
  fields := [
    Field.leaf "weight" .integer,
    (Field.leaf "spare" .integer).withDefault (.sameAs "weight"),
    (Field.text "address").require]

def parcelContext : Context where
  schema := { typeOf := fun _ => parcelType }
  ids := .sequential
  clock := .fixed .epoch

def parcel : Mapping :=
  [("kind", .string "Letter"), ("weight", .string "heavy"), ("colour", .string "red")]

/-- Everything is wrong with it: its tag, its weight, which leaves the spare one unset, its address
and its colour. -/
theorem parcel_refused :
    ((Entity.ofMapping parcelContext ⟨"Parcel"⟩ parcel).run.run {}).1 = .error (.multiple [
      .invalidProperty "Parcel" "kind" (.notEqual "Parcel"),
      .invalidProperty "Parcel" "weight" .notAnInteger,
      .missingProperties "Parcel" ["address"],
      .unexpectedProperties "Parcel" ["colour"]]) := by
  obtain ⟨trials, after, -, unique, -, -, outcome⟩ :=
    Entity.ofMapping_outcome parcelContext ⟨"Parcel"⟩ parcel {}
  have tried : parcelType.Tries parcelContext parcelContext.builders parcel parcelType.fields [] {}
      [⟨Field.leaf "weight" .integer, .error (.invalidProperty "Parcel" "weight" .notAnInteger)⟩,
        ⟨(Field.leaf "spare" .integer).withDefault (.sameAs "weight"), .ok none⟩,
        ⟨(Field.text "address").require, .ok none⟩] {} :=
    .cons (.filled rfl (.single rfl (.refused rfl)))
      (.cons (.unset rfl) (.cons (.unset rfl) .nil))
  obtain ⟨rfl, -⟩ := unique _ _ tried
  exact outcome

end Outcome

end Dossier
