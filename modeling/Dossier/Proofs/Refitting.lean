import Dossier.Entity.Operations
import Dossier.Proofs.Recursion

/-!
# Contexts with other functions

The hooks of a context and its deferred defaults are functions that come from outside. Contexts that
differ in nothing else build alike but for what the deferred defaults do: a relation of builds that
is kept by every way to put builds together (`Build.Congruence`), and that holds of asking the
defaults of the one and those of the other, holds of all their building (`Context.build_refitted`).
-/

namespace Dossier

/-- The context with other hooks, those that a name stands for and the one that caches, and with
other deferred defaults. -/
def Context.refitted (ctx : Context) (hooks : String → Entity → Store → Store) (caching : Bool)
    (defaults : String → DefaultScope → Store → Option Value × Store) : Context :=
  { ctx with hooks, defaults, config := { ctx.config with cacheEntities := caching } }

/-- A relation of builds that is kept by every way to put builds together. -/
structure Build.Congruence (R : {α : Type} → Build α → Build α → Prop) : Prop where
  pure {α : Type} (value : α) : R (Pure.pure value) (Pure.pure value)
  fail {α : Type} (e : EntityError) : R (Build.fail e : Build α) (Build.fail e)
  leave (calls : List HookCall) : R (Build.leave calls) (Build.leave calls)
  drawId (ids : IdSource) (typeName : String) :
    R (Build.drawId ids typeName) (Build.drawId ids typeName)
  readClock (clock : Clock) : R (Build.readClock clock) (Build.readClock clock)
  bind {α β : Type} {x y : Build α} {f g : α → Build β} :
    R x y → (∀ value, R (f value) (g value)) → R (x >>= f) (y >>= g)
  attempt {α : Type} {x y : Build α} : R x y → R x.attempt y.attempt
  within {α : Type} {x y : Build α} (segment : String) :
    R x y → R (Build.within segment x) (Build.within segment y)

namespace Build.Congruence

variable {R : {α : Type} → Build α → Build α → Prop} {α β : Type}

theorem map (c : Congruence R) (f : α → β) {x y : Build α} (h : R x y) : R (f <$> x) (f <$> y) := by
  rw [map_eq_pure_bind, map_eq_pure_bind]
  exact c.bind h fun _ => c.pure _

theorem ofExcept (c : Congruence R) (e : Except EntityError α) :
    R (Build.ofExcept e) (Build.ofExcept e) := by
  cases e with
  | ok value => exact c.pure value
  | error e => exact c.fail e

theorem foldlM (c : Congruence R) {f g : β → α → Build β} {items : List α}
    (each : ∀ state, ∀ item ∈ items, R (f state item) (g state item)) (state : β) :
    R (items.foldlM f state) (items.foldlM g state) := by
  induction items generalizing state with
  | nil => exact c.pure state
  | cons item items ih =>
    rw [List.foldlM_cons, List.foldlM_cons]
    refine c.bind (each state item List.mem_cons_self) fun next => ?_
    exact ih (fun state other member => each state other (List.mem_cons_of_mem _ member)) next

end Build.Congruence

/-- The builders are in a relation, mapping by mapping. -/
def Builder.Related (R : {α : Type} → Build α → Build α → Prop) (build other : Builder) : Prop :=
  ∀ type m, R (build type m) (other type m)

/-! ## Coercion -/

section Coercion

variable {R : {α : Type} → Build α → Build α → Prop} {ctx : Context} {build other : Builder}
  {owner : EntityType} {f : Field}

theorem RelatedObject.ofRecord_related (c : Build.Congruence R) (h : build.Related R other)
    (type : TypeKey) (record : Mapping) (shown : Presentation) :
    R (ofRecord build type record shown) (ofRecord other type record shown) := by
  have embedded : ∀ relationship,
      R (do return inline (← build type (payloadOf record)) relationship : Build RelatedObject)
        (do return inline (← other type (payloadOf record)) relationship) :=
    fun _ => c.bind (h type _) fun _ => c.pure _
  unfold ofRecord
  refine c.bind (c.ofExcept _) fun relationship => ?_
  refine c.bind (c.ofExcept _) ?_
  rintro (_ | idref)
  · dsimp only
    split
    · exact c.fail _
    · exact embedded relationship
  · dsimp only
    split
    · exact c.pure _
    · exact embedded relationship

namespace Field

theorem coerceKind_related (c : Build.Congruence R) (h : build.Related R other) (segment : String)
    (raw : Value) :
    R (f.coerceKind ctx build owner segment raw) (f.coerceKind ctx other owner segment raw) := by
  unfold coerceKind
  cases f.kind with
  | leaf leaf =>
    dsimp only
    split
    · exact c.pure _
    · exact c.fail _
  | entity type =>
    cases raw with
    | mapping entries => exact c.map _ (c.within segment (h type entries))
    | entity e =>
      dsimp only [coerceEntity]
      split
      · exact c.pure _
      · exact c.fail _
    | _ => exact c.fail _
  | polymorphic name =>
    refine c.bind (c.ofExcept _) fun registry => ?_
    cases raw with
    | mapping entries =>
      refine c.within segment (c.bind (c.ofExcept _) fun type => ?_)
      exact c.bind (h type entries) fun _ => c.pure _
    | entity e =>
      dsimp only
      split
      · exact c.pure _
      · exact c.fail _
    | _ => exact c.fail _
  | related type =>
    cases raw with
    | mapping entries =>
      exact c.map _ (c.within segment (RelatedObject.ofRecord_related c h type entries _))
    | related r =>
      dsimp only [coerceRelated]
      split
      · exact c.fail _
      · split
        · exact c.within segment (c.fail _)
        · exact c.pure _
    | entity e =>
      dsimp only [coerceRelated]
      split
      · exact c.pure _
      · exact c.fail _
    | _ => exact c.fail _

theorem coerceSingle_related (c : Build.Congruence R) (h : build.Related R other)
    (segment : String) (raw : Value) :
    R (f.coerceSingle ctx build owner segment raw) (f.coerceSingle ctx other owner segment raw) := by
  refine c.bind (coerceKind_related c h segment raw) fun value => ?_
  split
  · exact c.pure _
  · exact c.fail _

theorem coerceItems_related (c : Build.Congruence R) (h : build.Related R other) (index : Nat)
    (items : List Value) :
    R (f.coerceItems ctx build owner index items) (f.coerceItems ctx other owner index items) := by
  induction items generalizing index with
  | nil => exact c.pure _
  | cons item items ih =>
    refine c.bind (coerceSingle_related c h _ item) fun _ => ?_
    exact c.bind (ih (index + 1)) fun _ => c.pure _

theorem coerce_related (c : Build.Congruence R) (h : build.Related R other) (raw : Value) :
    R (f.coerce ctx build owner raw) (f.coerce ctx other owner raw) := by
  unfold coerce
  split
  · split
    · exact c.fail _
    · exact c.map _ (coerceItems_related c h 0 _)
  · exact coerceSingle_related c h f.name raw

end Field

end Coercion

/-! ## Construction -/

section Construction

variable (ctx : Context) (hooks : String → Entity → Store → Store) (caching : Bool)
  (defaults : String → DefaultScope → Store → Option Value × Store)

theorem Field.coerceItems_refitted (build : Builder) (owner : EntityType) (f : Field) (index : Nat)
    (items : List Value) :
    f.coerceItems (ctx.refitted hooks caching defaults) build owner index items =
      f.coerceItems ctx build owner index items := by
  induction items generalizing index with
  | nil => rfl
  | cons item items ih =>
    rw [coerceItems, coerceItems, ih]
    rfl

/-- Coercion has no use for those functions but through its builder. -/
theorem Field.coerce_refitted (build : Builder) (owner : EntityType) (f : Field) (raw : Value) :
    f.coerce (ctx.refitted hooks caching defaults) build owner raw =
      f.coerce ctx build owner raw := by
  unfold coerce
  rw [coerceItems_refitted]
  rfl

variable {ctx hooks caching defaults} {R : {α : Type} → Build α → Build α → Prop}

variable (R ctx hooks caching defaults) in
/-- Asking the deferred defaults of the fields of a type is in the relation. -/
def Context.AsksRelated : Prop :=
  ∀ key, ∀ f ∈ (ctx.typeOf key).fields, ∀ name, f.default? = some (.deferred name) → ∀ assigned,
    R (Build.ask ctx name ⟨ctx.typeOf key, assigned⟩)
      (Build.ask (ctx.refitted hooks caching defaults) name ⟨ctx.typeOf key, assigned⟩)

theorem Field.fill_refitted (c : Build.Congruence R)
    (asks : ctx.AsksRelated hooks caching defaults R) {builders others : Builders}
    (supplied : builders.supplied.Related R others.supplied)
    (defaulted : builders.defaulted.Related R others.defaulted) {type : TypeKey} {f : Field}
    (declared : f ∈ (ctx.typeOf type).fields) (assigned : Mapping) (raw? : Option Value) :
    R (f.fill ctx builders (ctx.typeOf type) assigned raw?)
      (f.fill (ctx.refitted hooks caching defaults) others (ctx.typeOf type) assigned raw?) := by
  unfold fill
  cases raw? with
  | some raw =>
    dsimp only
    rw [coerce_refitted]
    exact c.map _ (coerce_related c supplied raw)
  | none =>
    dsimp only
    cases given : f.default? with
    | none => exact c.pure _
    | some default =>
      refine c.bind ?_ ?_
      · cases default with
        | generateId => exact c.bind (c.drawId _ _) fun _ => c.pure _
        | now => exact c.bind (c.readClock _) fun _ => c.pure _
        | deferred name => exact asks type f declared name given assigned
        | _ => exact c.pure _
      · rintro (_ | raw)
        · exact c.pure _
        · dsimp only
          rw [coerce_refitted]
          exact c.map _ (coerce_related c defaulted raw)

theorem EntityType.construct_refitted (c : Build.Congruence R)
    (asks : ctx.AsksRelated hooks caching defaults R) {builders others : Builders}
    (supplied : builders.supplied.Related R others.supplied)
    (defaulted : builders.defaulted.Related R others.defaulted) (type : TypeKey) (m : Mapping) :
    R (construct ctx builders type m)
      (construct (ctx.refitted hooks caching defaults) others type m) := by
  refine c.bind (c.foldlM (fun progress f declared => ?_) _) fun progress => ?_
  · refine c.bind (c.attempt (f.fill_refitted c asks supplied defaulted declared _ _)) ?_
    rintro (error | (_ | value))
    · exact c.pure _
    · exact c.pure _
    · exact c.pure _
  · have told : (ctx.refitted hooks caching defaults).typeOf type = ctx.typeOf type ∧
        (ctx.typeOf type).errorsOf (ctx.refitted hooks caching defaults) progress =
          (ctx.typeOf type).errorsOf ctx progress := ⟨rfl, rfl⟩
    simp only [told]
    cases EntityError.combine ((ctx.typeOf type).errorsOf ctx progress) with
    | some error => exact c.fail error
    | none => exact c.bind (c.leave _) fun _ => c.pure _

variable (hooks caching defaults) in
/-- **Contexts with other functions build alike.** By induction on the depth of what was supplied,
inside an induction on the nesting of defaults. -/
theorem Context.build_refitted (c : Build.Congruence R)
    (asks : ctx.AsksRelated hooks caching defaults R) :
    ctx.build.Related R (ctx.refitted hooks caching defaults).build := by
  have within : ∀ {defaulted other : Builder}, defaulted.Related R other → ∀ depth,
      (ctx.buildWithin defaulted depth).Related R
        ((ctx.refitted hooks caching defaults).buildWithin other depth) := by
    intro defaulted other related depth
    induction depth with
    | zero =>
      intro type m
      exact c.fail _
    | succ depth ih => exact EntityType.construct_refitted c asks ih related
  have nesting : ∀ n, (ctx.buildNesting n).Related R
      ((ctx.refitted hooks caching defaults).buildNesting n) := by
    intro n
    induction n with
    | zero =>
      intro type m
      exact within (fun _ _ => c.fail _) _ type m
    | succ n ih =>
      intro type m
      exact within ih _ type m
  exact nesting _

end Construction

end Dossier
