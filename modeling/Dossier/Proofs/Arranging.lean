import Dossier.Proofs.Legible
import Dossier.Proofs.Reachable
import Dossier.Proofs.Settled

/-!
# What construction leaves

Construction leaves an entity arranged: its values are in the order of the fields,
its custom properties are apart from them, and the defaults of unset fields, unless
deferred, had nothing to give (`EntityType.construct_arranged`). What was supplied under a key
that is not declared can be read off the canonical form again, as the tag or as a
custom property (`EntityType.construct_reading`).
-/

namespace Dossier

section Silence

variable {ctx : Context} {builders : Builders} {t : EntityType} {supplied : Mapping}

/-- A field stays unset only if its default has nothing to give, or is deferred. -/
theorem Field.silent_of_fill {f : Field} {assigned : Mapping} {raw? : Option Value}
    {store after : Store} {calls : List HookCall}
    (run : f.fill ctx builders t assigned raw? store = (.ok (none, calls), after))
    {default : Default} (given : f.default? = some default) (prompt : default.isDeferred = false) :
    default.Silent ctx t assigned := by
  cases raw? with
  | some raw => exact absurd run fill_supplied_ne
  | none =>
    simp only [fill, given] at run
    obtain ⟨value?, _, _, _, gave, rest, -⟩ := Build.bind_eq_ok run
    cases value? with
    | some raw =>
      -- a value that was given is coerced or refused
      have supplied : f.fill ctx ⟨builders.defaulted, builders.defaulted⟩ t assigned (some raw) _ =
        _ := rest
      exact absurd supplied fill_supplied_ne
    | none =>
      cases default with
      | fixed value =>
        rw [Default.rawValue, Build.pure_run] at gave
        cases (Prod.mk.inj gave).1
      | generateId => cases (Prod.mk.inj gave).1
      | now => cases (Prod.mk.inj gave).1
      | sameAs field =>
        rw [Default.rawValue, Build.pure_run] at gave
        exact (Prod.mk.inj (Except.ok.inj (Prod.mk.inj gave).1)).1
      | computed compute =>
        rw [Default.rawValue, Build.pure_run] at gave
        exact (Prod.mk.inj (Except.ok.inj (Prod.mk.inj gave).1)).1
      | deferred name => cases prompt

/-- By induction on the fields: the default of a field that was left unset had nothing to give after
the values of the trials before. -/
theorem EntityType.trials_silent {fields : List Field} {assigned : Mapping} {store : Store}
    {before after : List Trial} {trial : Trial}
    (split : (t.trials ctx builders supplied fields assigned store).list =
      before ++ trial :: after)
    (unset : trial.outcome = .ok none) {default : Default}
    (given : trial.field.default? = some default) (prompt : default.isDeferred = false) :
    default.Silent ctx t (assigned ++ before.filterMap Trial.value?) := by
  induction fields generalizing assigned store before with
  | nil => exact absurd split (by simp [trials])
  | cons f fields ih =>
    rw [trials] at split
    rcases run : f.fill ctx builders t assigned (supplied.get? f.name) store with
      ⟨error | ⟨_ | value, calls⟩, later⟩
    all_goals
      simp only [run] at split
      rcases before with _ | ⟨first, before⟩
      all_goals
        obtain ⟨rfl, rest⟩ := List.cons.inj split
    · cases unset
    · simpa [List.filterMap_cons] using ih rest
    · simpa using Field.silent_of_fill run given prompt
    · simpa [List.filterMap_cons] using ih rest
    · cases unset
    · simpa using ih rest

end Silence

namespace EntityType

variable {ctx : Context} {builders : Builders} {type : TypeKey} {supplied : Mapping}
  {trials : Trials}

theorem declared_of_mem_values (fields : trials.list.map (·.field) = (ctx.typeOf type).fields)
    {name : String} (member : name ∈ Table.keys trials.values) :
    ∃ f ∈ (ctx.typeOf type).fields, f.name = name := by
  obtain ⟨trial, tried, rfl⟩ := List.mem_map.1 (Trials.keys_values_subset trials.list member)
  exact ⟨trial.field, fields ▸ List.mem_map_of_mem tried, rfl⟩

theorem complete_extras (keys : Table.Distinct supplied) :
    Table.Distinct (complete ctx type supplied trials).extras := by
  simp only [complete]
  split
  · exact keys.sublist (List.filter_sublist.map _)
  · exact List.nodup_nil

theorem complete_untagged {tag : TypeTag}
    (found : (ctx.typeOf type).separateTag? = some tag) :
    tag.key ∉ Table.keys (complete ctx type supplied trials).extras := by
  simp only [complete]
  split
  · intro member
    obtain ⟨entry, there, same⟩ := List.mem_map.1 member
    have apart := (List.mem_filter.1 there).2
    simp [found, same] at apart
  · exact List.not_mem_nil

/-- The values before a field are those of the trials before its own. -/
theorem held_complete (fields : trials.list.map (·.field) = (ctx.typeOf type).fields)
    (noErrors : trials.errors = []) {before after : List Trial}
    (split : trials.list = before ++ after) :
    (complete ctx type supplied trials).held (before.map (·.field)) =
      before.filterMap Trial.value? := by
  have names := Trials.nodup_names fields
  rw [Entity.held, List.filterMap_map]
  apply List.filterMap_congr
  intro trial member
  have tried : trial ∈ trials.list := by simp [split, member]
  obtain ⟨held, accepted⟩ := Trials.accepted_of_errors noErrors tried
  show (Table.get? trials.values trial.field.name).map _ = _
  rw [Trials.values, Trials.get?_values names tried accepted]
  obtain ⟨f, outcome⟩ := trial
  obtain rfl : outcome = .ok held := accepted
  cases held <;> rfl

/-- **Construction leaves an entity arranged**, if what was supplied has distinct keys. -/
theorem construct_arranged {store after : Store} {e : Entity} {calls : List HookCall}
    (run : construct ctx builders type supplied store = (.ok (e, calls), after))
    (fits : e.Fits ctx) (keys : Table.Distinct supplied) : e.Arranged ctx := by
  obtain ⟨quiet, rfl, -⟩ := construct_ok run
  have fields := trials_fields ctx builders (ctx.typeOf type) supplied (ctx.typeOf type).fields []
    store
  simp only [complaints, List.append_eq_nil_iff] at quiet
  obtain ⟨⟨⟨-, noErrors⟩, -⟩, -⟩ := quiet
  refine ⟨⟨fits, complete_ordered fields noErrors, complete_extras keys,
    fun tag found => complete_untagged found⟩, ?_⟩
  intro before f later split unset default given prompt
  have split : (ctx.typeOf type).fields = before ++ f :: later := split
  -- the trials split as the fields do
  rw [← fields] at split
  obtain ⟨first, rest, whole, rfl, more⟩ := List.map_eq_append_iff.1 split
  obtain ⟨trial, last, rfl, rfl, rfl⟩ := List.map_eq_cons_iff.1 more
  have tried : trial ∈ (EntityType.trials ctx builders (ctx.typeOf type) supplied
      (ctx.typeOf type).fields [] store).list := by simp [whole]
  obtain ⟨held, accepted⟩ := Trials.accepted_of_errors noErrors tried
  obtain rfl : held = none := by
    rw [← Trials.get?_values (Trials.nodup_names fields) tried accepted]
    exact unset
  rw [held_complete fields noErrors whole]
  exact trials_silent whole accepted given prompt

/-- What was supplied under a key that is neither declared nor the tag's is a custom property, or it
would have been complained of. -/
theorem construct_extra {store after : Store} {e : Entity} {calls : List HookCall}
    (run : construct ctx builders type supplied store = (.ok (e, calls), after)) {key : String}
    (undeclared : (ctx.typeOf type).field? key = none)
    (other : ∀ tag, (ctx.typeOf type).separateTag? = some tag → tag.key ≠ key) :
    Table.get? e.extras key = supplied.get? key := by
  obtain ⟨quiet, rfl, -⟩ := construct_ok run
  simp only [complaints, List.append_eq_nil_iff] at quiet
  obtain ⟨-, expected⟩ := quiet
  have left : Table.get? ((ctx.typeOf type).undeclared supplied) key = supplied.get? key := by
    refine (Table.get?_filter (fun key => ((ctx.typeOf type).field? key).isNone &&
      (ctx.typeOf type).separateTag?.all fun tag => key ≠ tag.key) supplied key).trans ?_
    rw [if_pos]
    rw [undeclared]
    cases found : (ctx.typeOf type).separateTag? with
    | none => rfl
    | some tag => simpa using Ne.symm (other tag found)
  rw [unexpectedErrors] at expected
  split at expected
  · next kept =>
    simp only [complete]
    split
    · exact left
    · next closed =>
      -- there is nothing to keep
      rw [kept.resolve_left closed] at left
      exact left
  · cases expected

/-- A text that was supplied under a key that is not declared is read off the canonical form. -/
theorem construct_reading {store after : Store} {e : Entity} {calls : List HookCall}
    (run : construct ctx builders type supplied store = (.ok (e, calls), after)) {key s : String}
    (undeclared : (ctx.typeOf type).field? key = none)
    (given : supplied.get? key = some (.string s)) :
    Table.get? (e.reading ctx) key = some (.string s) := by
  have kept := construct_extra run undeclared
  obtain ⟨quiet, rfl, -⟩ := construct_ok run
  by_cases tagged : ∃ tag, (ctx.typeOf type).separateTag? = some tag ∧ tag.key = key
  · -- the tag, which had to be that of the type
    obtain ⟨tag, found, rfl⟩ := tagged
    simp only [complaints, List.append_eq_nil_iff] at quiet
    obtain ⟨⟨⟨rightTag, -⟩, -⟩, -⟩ := quiet
    rw [Entity.get?_reading_tag (e := complete ctx type supplied _) found]
    simp only [tagErrors, found, given] at rightTag
    split at rightTag
    · next same => rw [Option.some.inj same]
    · cases rightTag
  · have other : ∀ tag, (ctx.typeOf type).separateTag? = some tag → tag.key ≠ key :=
      fun tag found same => tagged ⟨tag, found, same⟩
    have unset : key ∉ Table.keys (EntityType.trials ctx builders (ctx.typeOf type) supplied
        (ctx.typeOf type).fields [] store).values := by
      intro member
      obtain ⟨f, declared, rfl⟩ := declared_of_mem_values (trials_fields ..) member
      rw [field?_of_mem declared] at undeclared
      cases undeclared
    rw [Entity.get?_reading_extra (e := complete ctx type supplied _) other unset, kept other, given]
    rfl

/-- A custom property was supplied. -/
theorem construct_extras {store after : Store} {e : Entity} {calls : List HookCall}
    (run : construct ctx builders type supplied store = (.ok (e, calls), after)) :
    ∀ entry ∈ e.extras, entry ∈ supplied := by
  obtain ⟨-, rfl, -⟩ := construct_ok run
  intro entry member
  simp only [complete] at member
  split at member
  · exact (mem_undeclared member).1
  · exact absurd member List.not_mem_nil

end EntityType

/-- What is built of a mapping with distinct keys is arranged. -/
theorem Context.build_arranged (ctx : Context) (type : TypeKey) {supplied : Mapping}
    (keys : Table.Distinct supplied) :
    (ctx.build type supplied).Ensures fun e => e.typeKey = type ∧ e.Arranged ctx := by
  intro store e calls after run
  obtain ⟨same, fits, -⟩ := Context.build_fits (Q := fun _ => True) (fun _ _ _ => trivial)
    (fun _ _ => trivial) type (fun _ _ _ _ => trivial) _ _ _ _ run
  rw [build_eq] at run
  exact ⟨same, EntityType.construct_arranged run fits keys⟩

theorem Entity.ofMapping_arranged {ctx : Context} {type : TypeKey} {supplied : Mapping}
    {store after : Store} {e : Entity} (keys : Table.Distinct supplied)
    (run : (ofMapping ctx type supplied).run.run store = (.ok e, after)) : e.Arranged ctx :=
  ((ctx.build_arranged type keys).of_finish run).2

end Dossier
