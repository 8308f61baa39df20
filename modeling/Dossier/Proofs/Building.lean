import Dossier.Construction.Build

/-!
# Runs of builds

A build is opened at one store by `bind_eq_ok`, which takes a run of two builds
apart into the run of each. Two properties of builds are kept by every way of
putting builds together: `Ensures`, that a property holds of whatever comes out,
and `Gives`, that a certain value comes out and nothing was drawn for it. What
a build ensures, the operation that finishes it ensures.
-/

namespace Dossier.Build

variable {α β : Type}

theorem pure_run (value : α) (store : Store) :
    (pure value : Build α) store = (.ok (value, []), store) := rfl

/-- A run of two builds that succeeds is a run of each that does; their hook calls are joined. -/
theorem bind_eq_ok {x : Build α} {f : α → Build β} {store after : Store} {result : β}
    {calls : List HookCall} (h : (x >>= f) store = (.ok (result, calls), after)) :
    ∃ value first between last, x store = (.ok (value, first), between) ∧
      f value between = (.ok (result, last), after) ∧ calls = first ++ last := by
  change Build.bind x f store = _ at h
  unfold Build.bind at h
  rcases hx : x store with ⟨_ | ⟨value, first⟩, between⟩
  · simp [hx] at h
  · simp only [hx] at h
    rcases hf : f value between with ⟨_ | ⟨result', last⟩, after'⟩
    · simp [hf] at h
    · simp only [hf, Prod.mk.injEq, Except.ok.injEq] at h
      obtain ⟨⟨rfl, rfl⟩, rfl⟩ := h
      exact ⟨value, first, between, last, rfl, hf, rfl⟩

theorem bind_run_ok {x : Build α} {store between : Store} {value : α} {calls : List HookCall}
    (h : x store = (.ok (value, calls), between)) (f : α → Build β) :
    (x >>= f) store = match f value between with
      | (.error e, after) => (.error e, after)
      | (.ok (result, more), after) => (.ok (result, calls ++ more), after) := by
  show Build.bind x f store = _
  rcases hf : f value between with ⟨_ | ⟨result, more⟩, after⟩ <;> simp only [Build.bind, h, hf]

theorem bind_run_error {x : Build α} {store between : Store} {e : EntityError}
    (h : x store = (.error e, between)) (f : α → Build β) :
    (x >>= f) store = (.error e, between) := by
  show Build.bind x f store = _
  rw [Build.bind, h]

theorem bind_run_then_error {x : Build α} {f : α → Build β} {store between after : Store}
    {value : α} {calls : List HookCall} {e : EntityError}
    (h : x store = (.ok (value, calls), between)) (failed : f value between = (.error e, after)) :
    (x >>= f) store = (.error e, after) := by
  rw [bind_run_ok h, failed]

/-- Leaving hook calls on the way to a value. -/
theorem leave_run (calls : List HookCall) (value : α) (store : Store) :
    (leave calls >>= fun _ => (pure value : Build α)) store = (.ok (value, calls), store) := by
  rw [bind_run_ok (x := leave calls) rfl, pure_run]
  simp only [List.append_nil]

theorem attempt_run_ok {x : Build α} {store after : Store} {value : α} {calls : List HookCall}
    (h : x store = (.ok (value, calls), after)) :
    x.attempt store = (.ok (.ok value, calls), after) := by
  rw [attempt, h]

theorem attempt_run_error {x : Build α} {store after : Store} {e : EntityError}
    (h : x store = (.error e, after)) : x.attempt store = (.ok (.error e, []), after) := by
  rw [attempt, h]

theorem within_run_ok {x : Build α} {store after : Store} {value : α} {calls : List HookCall}
    (h : x store = (.ok (value, calls), after)) (segment : String) :
    x.within segment store = (.ok (value, calls), after) := by
  rw [within, h]

theorem within_run_error {x : Build α} {store after : Store} {e : EntityError}
    (h : x store = (.error e, after)) (segment : String) :
    x.within segment store = (.error (e.within segment), after) := by
  rw [within, h]

/-- What is given may be changed inside or outside of a segment. -/
theorem within_map (segment : String) (f : α → β) (x : Build α) :
    (f <$> x).within segment = f <$> x.within segment := by
  funext store
  rw [map_eq_pure_bind, map_eq_pure_bind]
  rcases run : x store with ⟨e | ⟨value, calls⟩, after⟩
  · rw [within_run_error (bind_run_error run _), bind_run_error (within_run_error run segment)]
  · rw [within, bind_run_ok run, bind_run_ok (within_run_ok run segment)]
    rfl

/-! ## Runs without their hook calls -/

/-- What a run comes to, leaving aside the hook calls. -/
def bare (x : Build α) (store : Store) : Except EntityError α × Store :=
  ((x store).1.map Prod.fst, (x store).2)

theorem bare_bind (x : Build α) (f : α → Build β) (store : Store) :
    (x >>= f).bare store = match x.bare store with
      | (.error e, after) => (.error e, after)
      | (.ok value, between) => (f value).bare between := by
  unfold bare
  rcases run : x store with ⟨e | ⟨value, calls⟩, between⟩
  · rw [bind_run_error run]
    rfl
  · rw [bind_run_ok run]
    simp only [Except.map]
    rcases f value between with ⟨e | ⟨result, more⟩, after⟩ <;> rfl

theorem bare_map (f : α → β) (x : Build α) (store : Store) :
    (f <$> x).bare store = (f <$> (x.bare store).1, (x.bare store).2) := by
  rw [map_eq_pure_bind, bare_bind]
  rcases x.bare store with ⟨e | value, after⟩ <;> rfl

theorem bare_attempt (x : Build α) (store : Store) :
    x.attempt.bare store = (.ok (x.bare store).1, (x.bare store).2) := by
  unfold bare attempt
  rcases x store with ⟨e | ⟨value, calls⟩, after⟩ <;> rfl

theorem bare_within (segment : String) (x : Build α) (store : Store) :
    (x.within segment).bare store =
      ((x.bare store).1.mapError (·.within segment), (x.bare store).2) := by
  unfold bare within
  rcases x store with ⟨e | result, after⟩ <;> rfl

theorem finish_run_ok {ctx : Context} {x : Build α} {store after : Store} {value : α}
    {calls : List HookCall} (h : x store = (.ok (value, calls), after)) :
    (x.finish ctx).run.run store =
      (.ok value, ctx.runHooks calls after) := by
  simp only [finish, ExceptT.run_mk, StateT.run, h]

theorem finish_run_error {ctx : Context} {x : Build α} {store after : Store}
    {e : EntityError} (h : x store = (.error e, after)) :
    (x.finish ctx).run.run store = (.error e, after) := by
  simp only [finish, ExceptT.run_mk, StateT.run, h]

/-- An operation comes to what its build comes to. -/
theorem finish_outcome (ctx : Context) (x : Build α) (store : Store) :
    ((x.finish ctx).run.run store).1 = (x.bare store).1 := by
  unfold bare
  rcases run : x store with ⟨e | ⟨value, calls⟩, after⟩
  · rw [finish_run_error run]
    rfl
  · rw [finish_run_ok run]
    rfl

/-! ## What comes out -/

/-- Whatever the build gives has the property. -/
def Ensures (x : Build α) (P : α → Prop) : Prop :=
  ∀ store value calls after, x store = (.ok (value, calls), after) → P value

namespace Ensures

variable {P Q : α → Prop} {R : β → Prop} {x : Build α}

theorem pure {value : α} (h : P value) : Ensures (pure value) P := by
  intro store result calls after run
  rw [pure_run] at run
  obtain ⟨rfl, -⟩ := Prod.mk.inj (Except.ok.inj (Prod.mk.inj run).1)
  exact h

theorem fail (e : EntityError) : Ensures (Build.fail e) P := by
  intro store result calls after run
  exact absurd (Prod.mk.inj run).1 (by simp)

theorem mono (h : Ensures x P) (weaker : ∀ value, P value → Q value) : Ensures x Q :=
  fun store value calls after run => weaker value (h store value calls after run)

theorem and (h : Ensures x P) (other : Ensures x Q) : Ensures x fun value => P value ∧ Q value :=
  fun store value calls after run =>
    ⟨h store value calls after run, other store value calls after run⟩

theorem bind {f : α → Build β} (first : Ensures x P)
    (later : ∀ value, P value → Ensures (f value) R) : Ensures (x >>= f) R := by
  intro store result calls after run
  obtain ⟨value, _, between, last, hx, hf, -⟩ := bind_eq_ok run
  exact later value (first _ _ _ _ hx) _ _ _ _ hf

/-- What comes out last is all that counts, if it has the property after anything. -/
theorem after {f : α → Build β} (last : ∀ value, Ensures (f value) R) : Ensures (x >>= f) R :=
  bind (P := fun _ => True) (fun _ _ _ _ _ => trivial) fun value _ => last value

theorem map {f : α → β} (h : Ensures x fun value => R (f value)) : Ensures (f <$> x) R := by
  rw [map_eq_pure_bind]
  exact h.bind fun _ holds => .pure holds

theorem ofExcept {e : Except EntityError α} (h : ∀ value, e = .ok value → P value) :
    Ensures (Build.ofExcept e) P := by
  cases e with
  | ok value => exact .pure (h value rfl)
  | error e => exact .fail e

theorem ask {ctx : Context} {name : String} {scope : DefaultScope} {P : Option Value → Prop}
    (h : ∀ store, P (ctx.defaults name scope store).1) : Ensures (Build.ask ctx name scope) P := by
  intro store raw? calls after run
  obtain ⟨rfl, -⟩ := Prod.mk.inj (Except.ok.inj (Prod.mk.inj run).1)
  exact h store

theorem within (segment : String) (h : Ensures x P) : Ensures (Build.within segment x) P := by
  intro store value calls after run
  unfold Build.within at run
  rcases hx : x store with ⟨_ | _, _⟩
  · simp [hx] at run
  · rw [hx] at run
    exact h _ _ _ _ (hx.trans run)

/-- What a finished build has given. -/
theorem of_finish (h : Ensures x P) {ctx : Context} {store after : Store} {value : α}
    (run : (x.finish ctx).run.run store = (.ok value, after)) : P value := by
  rcases outcome : x store with ⟨e | ⟨given, calls⟩, built⟩
  · rw [finish_run_error outcome] at run
    exact absurd (Prod.mk.inj run).1 (by simp)
  · rw [finish_run_ok outcome] at run
    obtain rfl := Except.ok.inj (Prod.mk.inj run).1
    exact h _ _ _ _ outcome

end Ensures

/-- The build gives the value, whatever the store is, leaves the store as it is, and has nothing
to be called but hooks of some sort. -/
def Gives (H : Hook → Prop) (x : Build α) (value : α) : Prop :=
  ∀ store, ∃ calls, x store = (.ok (value, calls), store) ∧ ∀ call ∈ calls, H call.hook

namespace Gives

variable {H : Hook → Prop} {x : Build α} {value : α} {result : β}

theorem pure (value : α) : Gives H (pure value) value :=
  fun _ => ⟨[], rfl, List.forall_mem_nil _⟩

theorem bind {f : α → Build β} (first : Gives H x value) (later : Gives H (f value) result) :
    Gives H (x >>= f) result := by
  intro store
  obtain ⟨calls, hx, among⟩ := first store
  obtain ⟨more, hf, amongMore⟩ := later store
  refine ⟨calls ++ more, ?_, List.forall_mem_append.2 ⟨among, amongMore⟩⟩
  rw [bind_run_ok hx, hf]

theorem map (h : Gives H x value) (f : α → β) : Gives H (f <$> x) (f value) := by
  rw [map_eq_pure_bind]
  exact h.bind (.pure _)

theorem within (segment : String) (h : Gives H x value) :
    Gives H (Build.within segment x) value := by
  intro store
  obtain ⟨calls, hx, among⟩ := h store
  exact ⟨calls, within_run_ok hx segment, among⟩

end Gives

end Dossier.Build

namespace Dossier.Action

variable {α β : Type} {x : Action α} {store next : Store}

theorem bind_run_ok {value : α} (h : x.run.run store = (.ok value, next)) (f : α → Action β) :
    (x >>= f).run.run store = (f value).run.run next := by
  rw [ExceptT.run_bind, StateT.run_bind, h]
  rfl

theorem bind_run_error {e : EntityError} (h : x.run.run store = (.error e, next))
    (f : α → Action β) : (x >>= f).run.run store = (.error e, next) := by
  rw [ExceptT.run_bind, StateT.run_bind, h]
  rfl

/-- What can be told beforehand and is no error is no step. -/
theorem except_ok_bind (value : α) (f : α → Action β) :
    (liftM (Except.ok value : Except EntityError α) >>= f) = f value := rfl

theorem within_run_ok {value : α} (h : x.run.run store = (.ok value, next)) (segment : String) :
    (within segment x).run.run store = (.ok value, next) := by
  rw [within, ExceptT.run_mk, StateT.run_bind, h]
  rfl

theorem within_run_error {e : EntityError} (h : x.run.run store = (.error e, next))
    (segment : String) :
    (within segment x).run.run store = (.error (e.within segment), next) := by
  rw [within, ExceptT.run_mk, StateT.run_bind, h]
  rfl

/-- Whatever the operation gives has the property. -/
def Ensures (x : Action α) (P : α → Prop) : Prop :=
  ∀ store value after, x.run.run store = (.ok value, after) → P value

namespace Ensures

variable {P : α → Prop} {R : β → Prop}

theorem pure {value : α} (h : P value) : Ensures (pure value) P := by
  intro store result after run
  obtain rfl := Except.ok.inj (Prod.mk.inj run).1
  exact h

theorem throw (e : EntityError) : Ensures (throw e) P :=
  fun _ _ _ run => absurd (Prod.mk.inj run).1 (by simp)

theorem bind {f : α → Action β} (first : Ensures x P)
    (later : ∀ value, P value → Ensures (f value) R) : Ensures (x >>= f) R := by
  intro store result after run
  rcases outcome : x.run.run store with ⟨error | value, between⟩
  · rw [bind_run_error outcome] at run
    exact absurd (Prod.mk.inj run).1 (by simp)
  · rw [bind_run_ok outcome] at run
    exact later value (first store value between outcome) between result after run

theorem after {f : α → Action β} (last : ∀ value, Ensures (f value) R) : Ensures (x >>= f) R :=
  bind (P := fun _ => True) (fun _ _ _ _ => trivial) fun value _ => last value

theorem map {f : α → β} (h : Ensures x fun value => R (f value)) : Ensures (f <$> x) R := by
  rw [map_eq_pure_bind]
  exact h.bind fun value holds => .pure holds

theorem except_bind {x : Except EntityError α} {f : α → Action β}
    (later : ∀ value, x = .ok value → Ensures (f value) R) : Ensures (liftM x >>= f) R := by
  cases x with
  | ok value => exact later value rfl
  | error e => exact throw e

theorem finish {x : Build α} (h : x.Ensures P) (ctx : Context) : Ensures (x.finish ctx) P :=
  fun _ _ _ run => h.of_finish run

end Ensures

end Dossier.Action

/-- Finishing a build whose value is changed changes the value that finishing it gives. -/
theorem Dossier.Build.finish_map {α β : Type} (f : α → β) (x : Build α) (ctx : Context) :
    (f <$> x).finish ctx = f <$> x.finish ctx := by
  apply ExceptT.ext
  funext store
  show ((f <$> x).finish ctx).run.run store = (f <$> x.finish ctx).run.run store
  rw [map_eq_pure_bind, map_eq_pure_bind]
  rcases run : x store with ⟨e | ⟨value, calls⟩, after⟩
  · rw [finish_run_error (bind_run_error run _), Action.bind_run_error (finish_run_error run)]
  · have given : (x >>= fun value => pure (f value)) store =
        (.ok (f value, calls), after) := by
      rw [bind_run_ok run, pure_run]
      simp only [List.append_nil]
    rw [finish_run_ok given, Action.bind_run_ok (finish_run_ok run)]
    rfl

namespace Dossier.Context

/-- Caching draws nothing. -/
theorem cacheEntity_supply (ctx : Context) (e : Entity) (store : Store) :
    (ctx.cacheEntity e store).supply = store.supply := by
  unfold cacheEntity
  split <;> rfl

/-- Hooks draw nothing together that draw nothing one by one. -/
theorem runHooks_supply (ctx : Context) {calls : List HookCall}
    (drawless : ∀ call ∈ calls, ∀ store,
      (ctx.runHook call.hook call.entity store).supply = store.supply) (store : Store) :
    (ctx.runHooks calls store).supply = store.supply := by
  induction calls generalizing store with
  | nil => rfl
  | cons call calls ih =>
    obtain ⟨first, later⟩ := List.forall_mem_cons.1 drawless
    exact (ih later _).trans (first store)

end Dossier.Context
