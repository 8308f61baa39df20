import Dossier.Proofs.Recursion

/-!
# What fields are offered and what they take

A field is offered what was supplied for it or, failing that, what its default has to
give (`Field.offer`). It takes a value by having it coerced to its kind and then checked
by its validator, and a list by taking the items of it one after the other
(`Field.Coerces`). The rules are those of a relation: they say what a field comes to
without saying how that is computed. Filling a field comes to what they say, and to nothing else
(`Field.fills_iff`).
-/

namespace Dossier

/-- What a default has to give, and the store after it was asked. -/
def Default.offer (ctx : Context) (owner : EntityType) (assigned : Mapping) :
    Default → Store → Option Value × Store
  | fixed value, store => (some value, store)
  | generateId, store =>
    let n := store.supply.drawn + 1
    (some (.string (ctx.ids.draw n owner.typeName).text), { store with supply.drawn := n })
  | now, store =>
    let n := store.supply.readings + 1
    (some (.timestamp (ctx.clock.reading n)), { store with supply.readings := n })
  | sameAs field, store => (assigned.get? field, store)
  | computed compute, store =>
    (compute { name := owner.name, typeName := owner.typeName, assigned }, store)
  | deferred name, store => ctx.defaults name { type := owner, assigned } store

/-- A computed default is a deferred one that looks at no more of its scope than the names of the type
and the values before it, and leaves the store alone. -/
theorem Default.offer_computed {ctx : Context} {name : String}
    {compute : DefaultInput → Option Value}
    (known : ∀ scope store, ctx.defaults name scope store =
      (compute ⟨scope.type.name, scope.type.typeName, scope.assigned⟩, store))
    (owner : EntityType) (assigned : Mapping) :
    (computed compute).offer ctx owner assigned = (deferred name).offer ctx owner assigned := by
  funext store
  exact (known ⟨owner, assigned⟩ store).symm

/-- What a field is to hold before coercion, and the store after its default was asked. A default is
asked only if nothing was supplied. -/
def Field.offer (ctx : Context) (owner : EntityType) (f : Field) (assigned : Mapping) :
    (supplied? : Option Value) → Store → Option Value × Store
  | some raw, store => (some raw, store)
  | none, store =>
    match f.default? with
    | some default => default.offer ctx owner assigned store
    | none => (none, store)

theorem Default.rawValue_run (ctx : Context) (owner : EntityType) (assigned : Mapping)
    (default : Default) (store : Store) :
    default.rawValue ctx owner assigned store =
      (.ok ((default.offer ctx owner assigned store).1, []),
        (default.offer ctx owner assigned store).2) := by
  cases default <;> rfl

/-- How a mapping becomes an entity that a field is offered: as one that was supplied, or as one
that a default gave. -/
def Builders.for (builders : Builders) : (supplied? : Option Value) → Builder
  | some _ => builders.supplied
  | none => builders.defaulted

/-- A field is filled by the coercion of what it is offered, and left unset if that is nothing. -/
theorem Field.fill_run (ctx : Context) (builders : Builders) (owner : EntityType) (f : Field)
    (assigned : Mapping) (supplied? : Option Value) (store : Store) :
    f.fill ctx builders owner assigned supplied? store =
      match f.offer ctx owner assigned supplied? store with
      | (none, between) => (.ok (none, []), between)
      | (some raw, between) =>
        (some <$> f.coerce ctx (builders.for supplied?) owner raw) between := by
  cases supplied? with
  | some raw => rfl
  | none =>
    unfold fill offer
    cases f.default? with
    | none => rfl
    | some default =>
      dsimp only
      rw [Build.bind_run_ok (default.rawValue_run ctx owner assigned store)]
      rcases default.offer ctx owner assigned store with ⟨_ | raw, between⟩
      · rfl
      · dsimp only [Builders.for]
        rcases (some <$> f.coerce ctx builders.defaulted owner raw) between with
          ⟨e | ⟨value, calls⟩, after⟩ <;> rfl

/-- A field that is left unset was offered nothing. -/
theorem Field.offer_of_unset {ctx : Context} {builders : Builders} {owner : EntityType} {f : Field}
    {assigned : Mapping} {supplied? : Option Value} {store after : Store} {calls : List HookCall}
    (run : f.fill ctx builders owner assigned supplied? store = (.ok (none, calls), after)) :
    f.offer ctx owner assigned supplied? store = (none, after) ∧ calls = [] := by
  rw [fill_run] at run
  rcases offered : f.offer ctx owner assigned supplied? store with ⟨_ | raw, between⟩
  · rw [offered] at run
    obtain ⟨given, rfl⟩ := Prod.mk.inj run
    obtain ⟨-, rfl⟩ := Prod.mk.inj (Except.ok.inj given)
    exact ⟨rfl, rfl⟩
  · rw [offered] at run
    dsimp only at run
    rw [map_eq_pure_bind] at run
    obtain ⟨value, _, _, _, _, given, -⟩ := Build.bind_eq_ok run
    rw [Build.pure_run] at given
    cases given

/-- What a field is set to is the coercion of what it was offered. -/
theorem Field.offer_of_set {ctx : Context} {builders : Builders} {owner : EntityType} {f : Field}
    {assigned : Mapping} {supplied? : Option Value} {store after : Store} {calls : List HookCall}
    {value : Value}
    (run : f.fill ctx builders owner assigned supplied? store = (.ok (some value, calls), after)) :
    ∃ raw between, f.offer ctx owner assigned supplied? store = (some raw, between) ∧
      f.coerce ctx (builders.for supplied?) owner raw between = (.ok (value, calls), after) := by
  rw [fill_run] at run
  rcases offered : f.offer ctx owner assigned supplied? store with ⟨_ | raw, between⟩
  · rw [offered] at run
    cases run
  · rw [offered] at run
    dsimp only at run
    rw [map_eq_pure_bind] at run
    obtain ⟨held, first, last, more, coerced, given, rfl⟩ := Build.bind_eq_ok run
    rw [Build.pure_run] at given
    cases given
    exact ⟨raw, between, rfl, by rwa [List.append_nil]⟩

/-! ## Coercion by rules -/

namespace Field

variable (ctx : Context) (build : Builder) (owner : EntityType) (f : Field)

/-- One value for a field: it is coerced to the kind of the field, and what it was coerced to is
checked by the validator. -/
inductive TakesOne (segment : String) (raw : Value) (store : Store) :
    Except EntityError Value → Store → Prop where
  | taken {value : Value} {after : Store}
      (coerced : (f.coerceKind ctx build owner segment raw).bare store = (.ok value, after))
      (passed : ∀ validator ∈ f.validator, validator.check value = .ok ()) :
      TakesOne segment raw store (.ok value) after
  | invalid {value : Value} {after : Store} {validator : Validator} {reason : Reason}
      (coerced : (f.coerceKind ctx build owner segment raw).bare store = (.ok value, after))
      (declared : f.validator = some validator) (failed : validator.check value = .error reason) :
      TakesOne segment raw store (.error (.invalidProperty owner.name f.name reason)) after
  | refused {e : EntityError} {after : Store}
      (refused : (f.coerceKind ctx build owner segment raw).bare store = (.error e, after)) :
      TakesOne segment raw store (.error e) after

/-- Values for a list, the first of which has the index given: they are taken one after the other
up to the first that is not taken. -/
inductive TakesAll : (index : Nat) → List Value → Store → Except EntityError (List Value) → Store →
    Prop where
  | nil {index : Nat} {store : Store} : TakesAll index [] store (.ok []) store
  | cons {index : Nat} {item value : Value} {items : List Value} {store between after : Store}
      {outcome : Except EntityError (List Value)}
      (taken : f.TakesOne ctx build owner (f.itemSegment index) item store (.ok value) between)
      (later : TakesAll (index + 1) items between outcome after) :
      TakesAll index (item :: items) store ((value :: ·) <$> outcome) after
  | refused {index : Nat} {item : Value} {items : List Value} {store after : Store}
      {e : EntityError}
      (refused : f.TakesOne ctx build owner (f.itemSegment index) item store (.error e) after) :
      TakesAll index (item :: items) store (.error e) after

/-- The coercion of a value: for a field of lists that of its items, of which there must be one if
the field is required. -/
inductive Coerces (raw : Value) (store : Store) : Except EntityError Value → Store → Prop where
  | single {outcome : Except EntityError Value} {after : Store} (holds : f.isMultiple = false)
      (taken : f.TakesOne ctx build owner f.name raw store outcome after) :
      Coerces raw store outcome after
  | list {outcome : Except EntityError (List Value)} {after : Store} (holds : f.isMultiple = true)
      (enough : itemsOf raw = [] → f.isRequired = false)
      (taken : f.TakesAll ctx build owner 0 (itemsOf raw) store outcome after) :
      Coerces raw store (.list <$> outcome) after
  | empty (holds : f.isMultiple = true) (none : itemsOf raw = []) (required : f.isRequired = true) :
      Coerces raw store (.error (.invalidProperty owner.name f.name .isEmpty)) store

/-- What a field comes to, given the values of the fields before it: it stays unset if it is offered
nothing, and otherwise holds the coercion of what it is offered. -/
inductive Fills (builders : Builders) (assigned : Mapping) (supplied? : Option Value)
    (store : Store) : Except EntityError (Option Value) → Store → Prop where
  | unset {after : Store} (offered : f.offer ctx owner assigned supplied? store = (none, after)) :
      Fills builders assigned supplied? store (.ok none) after
  | filled {raw : Value} {between after : Store} {outcome : Except EntityError Value}
      (offered : f.offer ctx owner assigned supplied? store = (some raw, between))
      (coerced : f.Coerces ctx (builders.for supplied?) owner raw between outcome after) :
      Fills builders assigned supplied? store (some <$> outcome) after

variable {ctx build owner f}

/-! ## The rules and the runs -/

theorem validate_eq_ok_iff {value : Value} :
    f.validate value = .ok () ↔ ∀ validator ∈ f.validator, validator.check value = .ok () := by
  unfold validate
  cases f.validator <;> simp

theorem takesOne_iff {segment : String} {raw : Value} {store after : Store}
    {outcome : Except EntityError Value} :
    f.TakesOne ctx build owner segment raw store outcome after ↔
      (f.coerceSingle ctx build owner segment raw).bare store = (outcome, after) := by
  rw [coerceSingle, Build.bare_bind]
  constructor
  · intro takes
    cases takes with
    | taken coerced passed =>
      simp only [coerced, validate_eq_ok_iff.2 passed]
      rfl
    | invalid coerced declared failed =>
      simp only [coerced, validate, declared, failed]
      rfl
    | refused refused => simp only [refused]
  · intro run
    rcases coerced : (f.coerceKind ctx build owner segment raw).bare store with ⟨e | value, between⟩
    · simp only [coerced] at run
      obtain ⟨rfl, rfl⟩ := Prod.mk.inj run
      exact .refused coerced
    · simp only [coerced] at run
      -- the kind has taken it, and the validator has the last word
      cases checked : f.validate value with
      | ok _ =>
        simp only [checked] at run
        obtain ⟨rfl, rfl⟩ := Prod.mk.inj run
        exact .taken coerced (validate_eq_ok_iff.1 checked)
      | error reason =>
        simp only [checked] at run
        obtain ⟨rfl, rfl⟩ := Prod.mk.inj run
        unfold validate at checked
        cases declared : f.validator with
        | none => rw [declared] at checked; cases checked
        | some validator =>
          rw [declared] at checked
          exact .invalid coerced declared checked

/-- By induction on the values, which are taken in turn by either side. -/
theorem takesAll_iff {index : Nat} {items : List Value} {store after : Store}
    {outcome : Except EntityError (List Value)} :
    f.TakesAll ctx build owner index items store outcome after ↔
      (f.coerceItems ctx build owner index items).bare store = (outcome, after) := by
  induction items generalizing index store outcome with
  | nil =>
    constructor
    · rintro ⟨⟩
      rfl
    · intro run
      obtain ⟨rfl, rfl⟩ := Prod.mk.inj run
      exact .nil
  | cons item items ih =>
    -- the items behind the first are coerced in the store that it has left
    have rest : ∀ value between,
        (do return value :: (← f.coerceItems ctx build owner (index + 1) items) :
          Build (List Value)).bare between =
        ((value :: ·) <$> ((f.coerceItems ctx build owner (index + 1) items).bare between).1,
          ((f.coerceItems ctx build owner (index + 1) items).bare between).2) := by
      intro value between
      rw [← map_eq_pure_bind, Build.bare_map]
    rw [coerceItems, Build.bare_bind]
    constructor
    · intro takes
      cases takes with
      | cons taken later =>
        simp only [takesOne_iff.1 taken, rest, ih.1 later]
      | refused refused => simp only [takesOne_iff.1 refused]
    · intro run
      rcases first : (f.coerceSingle ctx build owner (f.itemSegment index) item).bare store with
        ⟨e | value, between⟩
      · simp only [first] at run
        obtain ⟨rfl, rfl⟩ := Prod.mk.inj run
        exact .refused (takesOne_iff.2 first)
      · simp only [first, rest] at run
        obtain ⟨rfl, rfl⟩ := Prod.mk.inj run
        exact .cons (takesOne_iff.2 first) (ih.2 rfl)

theorem coerces_iff {raw : Value} {store after : Store} {outcome : Except EntityError Value} :
    f.Coerces ctx build owner raw store outcome after ↔
      (f.coerce ctx build owner raw).bare store = (outcome, after) := by
  unfold coerce
  cases holds : f.isMultiple with
  | false =>
    simp only [Bool.false_eq_true, if_false]
    rw [← takesOne_iff]
    constructor
    · intro coerces
      cases coerces with
      | single _ taken => exact taken
      | list other => simp [holds] at other
      | empty other => simp [holds] at other
    · exact .single holds
  | true =>
    simp only [if_true, Bool.and_eq_true, List.isEmpty_iff]
    -- an empty list is no value for a required field
    by_cases empty : itemsOf raw = [] ∧ f.isRequired = true
    · rw [if_pos empty]
      constructor
      · intro coerces
        cases coerces with
        | single other => simp [holds] at other
        | list _ enough => simp [enough empty.1] at empty
        | empty => rfl
      · intro run
        obtain ⟨rfl, rfl⟩ := Prod.mk.inj run
        exact .empty holds empty.1 empty.2
    · rw [if_neg empty, Build.bare_map]
      have enough : itemsOf raw = [] → f.isRequired = false := by
        intro none
        simpa [none] using empty
      constructor
      · intro coerces
        cases coerces with
        | single other => simp [holds] at other
        | list _ _ taken => rw [takesAll_iff.1 taken]
        | empty _ none required => exact absurd ⟨none, required⟩ empty
      · intro run
        obtain ⟨rfl, rfl⟩ := Prod.mk.inj run
        exact .list holds enough (takesAll_iff.2 rfl)

/-- **Filling a field comes to what the rules say.** -/
theorem fills_iff {builders : Builders} {assigned : Mapping} {supplied? : Option Value}
    {store after : Store} {outcome : Except EntityError (Option Value)} :
    f.Fills ctx owner builders assigned supplied? store outcome after ↔
      (f.fill ctx builders owner assigned supplied?).bare store = (outcome, after) := by
  -- what was offered, if anything, is coerced in the store that offering has left
  have run : (f.fill ctx builders owner assigned supplied?).bare store =
      match f.offer ctx owner assigned supplied? store with
      | (none, between) => (.ok none, between)
      | (some raw, between) =>
        (some <$> f.coerce ctx (builders.for supplied?) owner raw : Build _).bare between := by
    rw [Build.bare, fill_run]
    rcases f.offer ctx owner assigned supplied? store with ⟨_ | raw, between⟩ <;> rfl
  rw [run]
  constructor
  · intro fills
    cases fills with
    | unset offered => rw [offered]
    | filled offered coerced =>
      rw [offered]
      dsimp only
      rw [Build.bare_map, coerces_iff.1 coerced]
  · intro came
    rcases offered : f.offer ctx owner assigned supplied? store with ⟨_ | raw, between⟩
    · rw [offered] at came
      obtain ⟨rfl, rfl⟩ := Prod.mk.inj came
      exact .unset offered
    · rw [offered] at came
      dsimp only at came
      rw [Build.bare_map] at came
      obtain ⟨rfl, rfl⟩ := Prod.mk.inj came
      exact .filled offered (coerces_iff.2 rfl)

end Field

end Dossier
