import Dossier.Proofs.Alikeness
import Dossier.Proofs.HookCalls

/-!
# Builds in step

Two builds that start in alike stores are in step if they come to alike ends: both fail for alike
errors, or both give related values and leave alike hook calls, and alike stores in either case
(`Build.InStep`). Finishing them leaves alike stores too, if the hooks do not look at the order of
custom properties (`Build.InStep.finish`); what a context brings along that might look at it is
listed in `Context.OrderBlind`.
-/

namespace Dossier

/-- The errors differ at most in the order of the names of unexpected properties. -/
inductive EntityError.Alike : EntityError → EntityError → Prop where
  | refl (e : EntityError) : Alike e e
  | unexpected {typeName : String} {names others : List String} (perm : names.Perm others) :
    Alike (.unexpectedProperties typeName names) (.unexpectedProperties typeName others)
  | multiple {errors others : List EntityError} (length : errors.length = others.length)
    (each : ∀ {d e : EntityError}, (d, e) ∈ errors.zip others → Alike d e) :
    Alike (.multiple errors) (.multiple others)
  | atPath {path : Path} {d e : EntityError} (cause : Alike d e) :
    Alike (.atPath path d) (.atPath path e)

namespace EntityError.Alike

theorem within {d e : EntityError} (h : d.Alike e) (segment : String) :
    (d.within segment).Alike (e.within segment) := by
  cases h with
  | refl => exact .refl _
  | atPath cause => exact .atPath cause
  | unexpected perm => exact .atPath (.unexpected perm)
  | multiple length each => exact .atPath (.multiple length each)

theorem combine {errors others : List EntityError} (h : List.Forall₂ Alike errors others) :
    Option.Rel Alike (EntityError.combine errors) (EntityError.combine others) := by
  cases h with
  | nil => exact .none
  | cons head tail =>
    cases tail with
    | nil => exact .some head
    | cons second more =>
      obtain ⟨length, each⟩ := List.forall₂_iff_zip.1 (.cons head (.cons second more))
      exact .some (.multiple length each)

end EntityError.Alike

/-- The same hook, called with alike entities. -/
def HookCall.Alike (ctx : Context) (call other : HookCall) : Prop :=
  call.hook = other.hook ∧ call.entity.Alike ctx other.entity

/-- The same was drawn and written, and the same identifiers are cached in the same order, for alike
entities. -/
structure Store.Alike (ctx : Context) (store other : Store) : Prop where
  cache : Table.Rel (Entity.Alike ctx) store.cache.entries other.cache.entries
  supply : store.supply = other.supply
  journal : store.journal = other.journal

theorem Store.Alike.refl {ctx : Context} (store : Store) : store.Alike ctx store :=
  ⟨.refl .refl _, rfl, rfl⟩

theorem Store.Alike.supplied {ctx : Context} {store other : Store} (h : store.Alike ctx other)
    (supply : Supply) : Store.Alike ctx { store with supply } { other with supply } :=
  ⟨h.cache, rfl, h.journal⟩

theorem Store.Alike.eq_of_closed {ctx : Context} (closed : ∀ type, ¬ctx.KeepsCustom type)
    {store other : Store} (h : store.Alike ctx other) : store = other := by
  obtain ⟨⟨entries⟩, supply, journal⟩ := store
  obtain ⟨⟨others⟩, _, _⟩ := other
  obtain ⟨cache, rfl, rfl⟩ := h
  have same : entries = others :=
    (cache.mono fun _ _ alike => Value.entity.inj (alike.eq_of_closed closed)).eq
  rw [same]

/-! ## Builds -/

namespace Build

variable {α β γ δ : Type} {ctx : Context}

/-- Two builds come to alike ends: alike errors, or related values and alike hook calls, and alike
stores in either case. How the values are related may depend on the stores. -/
inductive AlikeEnds (ctx : Context) (R : α → β → Store → Store → Prop) :
    Except EntityError (α × List HookCall) × Store →
      Except EntityError (β × List HookCall) × Store → Prop where
  | failed {d e : EntityError} {after later : Store} (alike : d.Alike e)
      (stores : after.Alike ctx later) : AlikeEnds ctx R (.error d, after) (.error e, later)
  | given {v : α} {w : β} {calls more : List HookCall} {after later : Store}
      (related : R v w after later) (called : List.Forall₂ (HookCall.Alike ctx) calls more)
      (stores : after.Alike ctx later) :
      AlikeEnds ctx R (.ok (v, calls), after) (.ok (w, more), later)

/-- From the one store and from the other, the builds come to alike ends. -/
def InStep (ctx : Context) (store other : Store) (R : α → β → Store → Store → Prop) (x : Build α)
    (y : Build β) : Prop :=
  AlikeEnds ctx R (x store) (y other)

namespace InStep

variable {store other : Store} {R : α → β → Store → Store → Prop} {S : γ → δ → Store → Store → Prop}
  {x : Build α} {y : Build β}

theorem pure {v : α} {w : β} (stores : store.Alike ctx other) (h : R v w store other) :
    InStep ctx store other R (pure v) (pure w) :=
  .given h .nil stores

theorem fail {d e : EntityError} (stores : store.Alike ctx other) (h : d.Alike e) :
    InStep ctx store other R (Build.fail d) (Build.fail e) :=
  .failed h stores

theorem mono {R' : α → β → Store → Store → Prop} (h : InStep ctx store other R x y)
    (weaker : ∀ v w after later, R v w after later → R' v w after later) :
    InStep ctx store other R' x y := by
  unfold InStep at h ⊢
  generalize x store = first, y other = second at h ⊢
  cases h with
  | failed alike stores => exact .failed alike stores
  | given related called stores => exact .given (weaker _ _ _ _ related) called stores

theorem bind {f : α → Build γ} {g : β → Build δ} (h : InStep ctx store other R x y)
    (later : ∀ v w between behind, R v w between behind → between.Alike ctx behind →
      InStep ctx between behind S (f v) (g w)) :
    InStep ctx store other S (x >>= f) (y >>= g) := by
  unfold InStep at h ⊢
  rcases first : x store with ⟨d | ⟨v, calls⟩, between⟩ <;>
    rcases second : y other with ⟨e | ⟨w, more⟩, behind⟩ <;> rw [first, second] at h
  · rw [bind_run_error first, bind_run_error second]
    cases h with
    | failed alike stores => exact .failed alike stores
  · cases h
  · cases h
  · rw [bind_run_ok first, bind_run_ok second]
    cases h with
    | given related called stores =>
      have ends := later v w between behind related stores
      unfold InStep at ends
      generalize f v between = last, g w behind = final at ends ⊢
      cases ends with
      | failed alike stores => exact .failed alike stores
      | given results next stores => exact .given results (List.rel_append called next) stores

theorem map {f : α → γ} {g : β → δ} (h : InStep ctx store other R x y)
    (each : ∀ v w after later, R v w after later → S (f v) (g w) after later) :
    InStep ctx store other S (f <$> x) (g <$> y) := by
  rw [map_eq_pure_bind, map_eq_pure_bind]
  exact h.bind fun v w after later related stores => .pure stores (each v w after later related)

/-- What can be told beforehand is the same, or both fail for it. -/
theorem ofExcept_bind {e : Except EntityError α} {f : α → Build γ} {g : α → Build δ}
    (stores : store.Alike ctx other)
    (later : ∀ value, InStep ctx store other S (f value) (g value)) :
    InStep ctx store other S (Build.ofExcept e >>= f) (Build.ofExcept e >>= g) := by
  cases e with
  | ok value =>
    rw [Build.ofExcept, pure_bind, pure_bind]
    exact later value
  | error e =>
    have refused : ∀ (f : α → Build γ) store,
        (Build.ofExcept (.error e) >>= f) store = (.error e, store) := fun f _ => bind_run_error rfl f
    have told : ∀ (g : α → Build δ) store,
        (Build.ofExcept (.error e) >>= g) store = (.error e, store) := fun g _ => bind_run_error rfl g
    unfold InStep
    rw [refused, told]
    exact .failed (.refl e) stores

theorem within (segment : String) (h : InStep ctx store other R x y) :
    InStep ctx store other R (Build.within segment x) (Build.within segment y) := by
  unfold InStep Build.within at *
  generalize x store = first, y other = second at h ⊢
  cases h with
  | failed alike stores => exact .failed (alike.within segment) stores
  | given related called stores => exact .given related called stores

/-- What the first build gives has whatever property it leaves things with. -/
theorem and_leaves {P : α → List HookCall → Store → Prop} (h : InStep ctx store other R x y)
    (leaves : x.Leaves store P) :
    InStep ctx store other (fun v w after later => R v w after later ∧ ∃ calls, P v calls after)
      x y := by
  unfold InStep at h ⊢
  unfold Leaves at leaves
  generalize x store = first, y other = second at h leaves ⊢
  cases h with
  | failed alike stores => exact .failed alike stores
  | given related called stores =>
    exact .given ⟨related, _, leaves _ _ _ rfl⟩ called stores

/-- Whether the runs are the same may depend on something that is known only later. -/
theorem exact {R : α → α → Store → Store → Prop} {x y : Build α} {p : Prop}
    (h : InStep ctx store other R x y) (same : p → x store = y other) :
    InStep ctx store other (fun v w after later => R v w after later ∧ (p → v = w ∧ after = later))
      x y := by
  unfold InStep at h ⊢
  generalize x store = first, y other = second at h same ⊢
  cases h with
  | failed alike stores => exact .failed alike stores
  | given related called stores =>
    refine .given ⟨related, fun holds => ?_⟩ called stores
    obtain ⟨given, rfl⟩ := Prod.mk.inj (same holds)
    exact ⟨(Prod.mk.inj (Except.ok.inj given)).1, rfl⟩

end InStep

end Build

/-! ## What must not look at the order -/

/-- The functions that come with a schema, with the hooks of a context and with its deferred defaults
do not tell apart what differs only in the order of custom properties that are kept: what they make
of it is alike again. -/
structure Context.OrderBlind (ctx : Context) : Prop where
  test {type : TypeKey} {f : Field} {test : Value → Except String Unit} :
    f ∈ (ctx.typeOf type).fields → f.validator = some (.custom test) →
      ∀ {v w : Value}, v.Alike ctx w → test v = test w
  compute {type : TypeKey} {f : Field} {compute : DefaultInput → Option Value} :
    f ∈ (ctx.typeOf type).fields → f.default? = some (.computed compute) →
      ∀ {assigned other : Mapping}, assigned.Alike ctx other → ∀ name typeName,
        Option.Rel (Value.Alike ctx) (compute ⟨name, typeName, assigned⟩)
          (compute ⟨name, typeName, other⟩)
  answer {type : TypeKey} {f : Field} {name : String} :
    f ∈ (ctx.typeOf type).fields → f.default? = some (.deferred name) →
      ∀ {assigned other : Mapping} {store later : Store}, assigned.Alike ctx other →
        store.Alike ctx later →
        Option.Rel (Value.Alike ctx) (ctx.defaults name ⟨ctx.typeOf type, assigned⟩ store).1
            (ctx.defaults name ⟨ctx.typeOf type, other⟩ later).1 ∧
          (ctx.defaults name ⟨ctx.typeOf type, assigned⟩ store).2.Alike ctx
            (ctx.defaults name ⟨ctx.typeOf type, other⟩ later).2
  hook {name : String} {d e : Entity} {store other : Store} :
    d.Alike ctx e → store.Alike ctx other →
      (ctx.hooks name d store).Alike ctx (ctx.hooks name e other)

/-- Where no type keeps custom properties there is nothing to tell apart, whatever the functions. -/
theorem Context.OrderBlind.of_kept {ctx : Context}
    (blind : (∃ type, ctx.KeepsCustom type) → ctx.OrderBlind) : ctx.OrderBlind := by
  by_cases kept : ∃ type, ctx.KeepsCustom type
  · exact blind kept
  · have closed : ∀ type, ¬ctx.KeepsCustom type := not_exists.1 kept
    have values : ∀ {m other : Mapping}, m.Alike ctx other → m = other :=
      fun alike => (alike.mono fun _ _ => Value.Alike.eq_of_closed closed).eq
    refine ⟨fun _ _ _ _ alike => ?_, fun _ _ _ _ alike _ _ => ?_,
      fun _ _ _ _ _ _ alike stores => ?_, fun entity stores => ?_⟩
    · rw [alike.eq_of_closed closed]
    · rw [values alike]
      exact related_self .refl _
    · rw [values alike, stores.eq_of_closed closed]
      exact ⟨related_self .refl _, .refl _⟩
    · cases Value.Alike.eq_of_closed closed entity
      rw [stores.eq_of_closed closed]
      exact .refl _

namespace Context

variable {ctx : Context} {d e : Entity} {store other : Store}

theorem cacheEntity_alike (ctx : Context) (entity : d.Alike ctx e)
    (stores : store.Alike ctx other) :
    (ctx.cacheEntity d store).Alike ctx (ctx.cacheEntity e other) := by
  unfold cacheEntity
  split
  · refine ⟨?_, stores.supply, stores.journal⟩
    cases identified : d.identifier? ctx.schema with
    | none =>
      rw [Cache.register_of_none identified,
        Cache.register_of_none (entity.identifier?_eq ctx.schema ▸ identified)]
      exact stores.cache
    | some identifier =>
      rw [Cache.register_of_identifier identified,
        Cache.register_of_identifier (entity.identifier?_eq ctx.schema ▸ identified)]
      exact stores.cache.insert identifier entity
  · exact stores

theorem runHook_alike (blind : ctx.OrderBlind) (hook : Hook) (entity : d.Alike ctx e)
    (stores : store.Alike ctx other) :
    (ctx.runHook hook d store).Alike ctx (ctx.runHook hook e other) := by
  cases hook with
  | cacheEntity => exact ctx.cacheEntity_alike entity stores
  | named name => exact blind.hook entity stores

/-- Alike calls on alike stores leave alike stores, by induction on the calls. -/
theorem runHooks_alike (blind : ctx.OrderBlind) {calls more : List HookCall}
    (alike : List.Forall₂ (HookCall.Alike ctx) calls more) (stores : store.Alike ctx other) :
    (ctx.runHooks calls store).Alike ctx (ctx.runHooks more other) := by
  induction alike generalizing store other with
  | nil => exact stores
  | @cons call other' calls more head _ ih =>
    refine ih ?_
    dsimp only
    rw [head.1]
    exact runHook_alike blind _ head.2 stores

end Context

/-- What two operations that are in step come to: alike errors or related values, and alike stores
in either case. -/
inductive Action.SameEnd {α : Type} (ctx : Context) (R : α → α → Prop) :
    Except EntityError α × Store → Except EntityError α × Store → Prop where
  | refused {d e : EntityError} {after later : Store} (alike : d.Alike e)
      (stores : after.Alike ctx later) : SameEnd ctx R (.error d, after) (.error e, later)
  | given {v w : α} {after later : Store} (related : R v w) (stores : after.Alike ctx later) :
      SameEnd ctx R (.ok v, after) (.ok w, later)

/-- Builds in step are finished in step. -/
theorem Build.InStep.finish {α : Type} {R : α → α → Store → Store → Prop} {S : α → α → Prop}
    {ctx : Context} {x y : Build α} {store other : Store} (h : x.InStep ctx store other R y)
    (blind : ctx.OrderBlind) (related : ∀ v w after later, R v w after later → S v w) :
    Action.SameEnd ctx S ((x.finish ctx).run.run store) ((y.finish ctx).run.run other) := by
  unfold InStep at h
  rcases first : x store with ⟨d | ⟨v, calls⟩, after⟩ <;>
    rcases second : y other with ⟨e | ⟨w, more⟩, later⟩ <;> rw [first, second] at h
  · rw [finish_run_error first, finish_run_error second]
    cases h with
    | failed alike stores => exact .refused alike stores
  · cases h
  · cases h
  · rw [finish_run_ok first, finish_run_ok second]
    cases h with
    | given ends called stores =>
      exact .given (related _ _ _ _ ends) (Context.runHooks_alike blind called stores)

end Dossier
