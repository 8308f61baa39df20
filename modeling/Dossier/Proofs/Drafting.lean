import Dossier.Proofs.Refitting

/-!
# What building does to a store

A build runs no hooks before it is finished. Until then it draws from the sources of identifiers and
time, and deferred defaults do what they do when they are asked: `Context.Drafts` is a row of such
steps, with the deferred defaults that were asked and the stores that they were asked in. All of
building drafts, whether it succeeds or fails (`Context.build_drafts`).
-/

namespace Dossier

/-- A deferred default that was asked, and the store that it was asked in. -/
structure Ask where
  name : String
  scope : DefaultScope
  store : Store

namespace Ask

/-- What the default has made of the store. -/
def left (ctx : Context) (ask : Ask) : Store := (ctx.defaults ask.name ask.scope ask.store).2

/-- The default is that of a field of the type that is filled. -/
def Declared (ctx : Context) (ask : Ask) : Prop :=
  ∃ key, ask.scope.type = ctx.typeOf key ∧
    ∃ f ∈ (ctx.typeOf key).fields, f.default? = some (.deferred ask.name)

end Ask

/-- The first store becomes the second by drawing, and by asking deferred defaults in turn. -/
inductive Context.Drafts (ctx : Context) (store : Store) : List Ask → Store → Prop where
  | refl : Drafts ctx store [] store
  | draw {asks : List Ask} {between : Store} (earlier : Drafts ctx store asks between) :
    Drafts ctx store asks { between with supply.drawn := between.supply.drawn + 1 }
  | read {asks : List Ask} {between : Store} (earlier : Drafts ctx store asks between) :
    Drafts ctx store asks { between with supply.readings := between.supply.readings + 1 }
  | ask {asks : List Ask} {ask : Ask} (earlier : Drafts ctx store asks ask.store)
    (declared : ask.Declared ctx) : Drafts ctx store (asks ++ [ask]) (ask.left ctx)

namespace Context.Drafts

variable {ctx : Context} {store between after : Store} {asks more : List Ask}

theorem trans (first : ctx.Drafts store asks between) (later : ctx.Drafts between more after) :
    ctx.Drafts store (asks ++ more) after := by
  induction later with
  | refl => rwa [List.append_nil]
  | draw _ ih => exact ih.draw
  | read _ ih => exact ih.read
  | ask _ declared ih =>
    rw [← List.append_assoc]
    exact ih.ask declared

theorem declared (h : ctx.Drafts store asks after) : ∀ ask ∈ asks, ask.Declared ctx := by
  induction h with
  | refl => exact List.forall_mem_nil _
  | draw _ ih => exact ih
  | read _ ih => exact ih
  | ask _ declared ih => exact List.forall_mem_append.2 ⟨ih, List.forall_mem_singleton.2 declared⟩

/-- What the supply does not matter to, and what the defaults that were asked have kept, is kept. -/
theorem keeps {P : Store → Prop} (h : ctx.Drafts store asks after)
    (drawing : ∀ store supply, P store → P { store with supply })
    (asking : ∀ ask ∈ asks, P ask.store → P (ask.left ctx)) (start : P store) : P after := by
  induction h with
  | refl => exact start
  | draw _ ih => exact drawing _ _ (ih asking)
  | read _ ih => exact drawing _ _ (ih asking)
  | ask _ _ ih =>
    obtain ⟨earlier, last⟩ := List.forall_mem_append.1 asking
    exact List.forall_mem_singleton.1 last (ih earlier)

/-- If the defaults that were asked have left the cache as it was, it is as it was. -/
theorem cache_eq (h : ctx.Drafts store asks after)
    (spared : ∀ ask ∈ asks, (ask.left ctx).cache = ask.store.cache) : after.cache = store.cache :=
  h.keeps (P := fun other => other.cache = store.cache) (fun _ _ same => same)
    (fun ask member same => (spared ask member).trans same) rfl

theorem journal_eq (h : ctx.Drafts store asks after)
    (spared : ∀ ask ∈ asks, (ask.left ctx).journal = ask.store.journal) :
    after.journal = store.journal :=
  h.keeps (P := fun other => other.journal = store.journal) (fun _ _ same => same)
    (fun ask member same => (spared ask member).trans same) rfl

/-- Where no deferred default was asked, drawing is all that was done. -/
theorem eq_of_nil (h : ctx.Drafts store [] after) :
    after = { store with supply := after.supply } := by
  have same := h.keeps (P := fun other => other = { store with supply := other.supply })
    (fun other supply same => by rw [same]) (List.forall_mem_nil _) rfl
  exact same

end Context.Drafts

/-- The deferred defaults of the fields of a context leave its cache as it is. -/
def Context.SparesCache (ctx : Context) : Prop :=
  ∀ ask : Ask, ask.Declared ctx → (ask.left ctx).cache = ask.store.cache

/-- No field of the schema has a deferred default. -/
def Schema.NoneDeferred (schema : Schema) : Prop :=
  ∀ key, ∀ f ∈ (schema.typeOf key).fields, ∀ name, f.default? ≠ some (.deferred name)

/-- Where no field has a deferred default, none is asked. -/
theorem Context.Drafts.eq_of_noneDeferred {ctx : Context} {store after : Store} {asks : List Ask}
    (h : ctx.Drafts store asks after) (none : ctx.schema.NoneDeferred) :
    after = { store with supply := after.supply } := by
  cases asks with
  | nil => exact h.eq_of_nil
  | cons ask asks =>
    obtain ⟨key, -, f, member, deferred⟩ := h.declared ask List.mem_cons_self
    exact absurd deferred (none key f member ask.name)

/-! ## Building -/

/-- All that the build does to a store is to draft. -/
def Build.Drafts (ctx : Context) {α : Type} (x : Build α) : Prop :=
  ∀ store, ∃ asks, ctx.Drafts store asks (x store).2

namespace Build.Drafts

variable {ctx : Context} {α β : Type} {x : Build α}

theorem pure (value : α) : (pure value : Build α).Drafts ctx := fun _ => ⟨[], .refl⟩

theorem leave (calls : List HookCall) : (leave calls).Drafts ctx := fun _ => ⟨[], .refl⟩

theorem bind {f : α → Build β} (first : x.Drafts ctx) (later : ∀ value, (f value).Drafts ctx) :
    (x >>= f).Drafts ctx := by
  intro store
  obtain ⟨asks, drafts⟩ := first store
  rcases run : x store with ⟨e | ⟨value, calls⟩, between⟩ <;> rw [run] at drafts
  · rw [bind_run_error run]
    exact ⟨asks, drafts⟩
  · obtain ⟨more, drafted⟩ := later value between
    refine ⟨asks ++ more, Context.Drafts.trans drafts ?_⟩
    rw [bind_run_ok run]
    rcases last : f value between with ⟨e | ⟨result, later⟩, after⟩ <;> rwa [last] at drafted

variable (ctx) in
theorem congruence : Congruence fun x _ => x.Drafts ctx where
  pure := pure
  fail _ _ := ⟨[], .refl⟩
  leave := leave
  drawId _ _ _ := ⟨[], .draw .refl⟩
  readClock _ _ := ⟨[], .read .refl⟩
  bind := bind
  attempt := by
    intro α x _ drafts store
    obtain ⟨asks, drafted⟩ := drafts store
    refine ⟨asks, ?_⟩
    unfold attempt
    rcases run : x store with ⟨e | result, after⟩ <;> rwa [run] at drafted
  within := by
    intro α x _ segment drafts store
    obtain ⟨asks, drafted⟩ := drafts store
    refine ⟨asks, ?_⟩
    unfold within
    rcases run : x store with ⟨e | result, after⟩ <;> rwa [run] at drafted

end Build.Drafts

section

variable (ctx : Context)

theorem Context.build_drafts (type : TypeKey) (m : Mapping) : (ctx.build type m).Drafts ctx := by
  have drafts := @Context.build_refitted ctx ctx.hooks true ctx.defaults _
    (Build.Drafts.congruence ctx) ?_
  · exact drafts type m
  · intro key f declared name deferred assigned store
    have asked : Ask.Declared ctx ⟨name, ⟨ctx.typeOf key, assigned⟩, store⟩ :=
      ⟨key, rfl, f, declared, deferred⟩
    exact ⟨_, .ask .refl asked⟩

theorem RelatedObject.ofRecord_drafts (type : TypeKey) (record : Mapping) (shown : Presentation) :
    (ofRecord ctx.build type record shown).Drafts ctx :=
  @ofRecord_related _ _ ctx.build (Build.Drafts.congruence ctx) ctx.build_drafts type record shown

theorem Entity.setField_drafts (e : Entity) (f : Field) (value : Value) :
    (e.setField ctx f value).Drafts ctx := by
  have coerced : (f.coerce ctx ctx.build (e.type ctx.schema) value).Drafts ctx :=
    @Field.coerce_related _ _ _ ctx.build _ _ (Build.Drafts.congruence ctx) ctx.build_drafts value
  refine coerced.bind fun value => ?_
  cases f.hook with
  | some hook => exact Build.Drafts.bind (.leave _) fun _ => .pure _
  | none => exact Build.Drafts.bind (.pure ()) fun _ => .pure _

end

end Dossier
