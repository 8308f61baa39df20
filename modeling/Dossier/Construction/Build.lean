import Dossier.Context

/-!
# Building

A build is a step of putting an entity together. It may draw from the sources
of identifiers and time and ask deferred defaults, it may fail, and it leaves
hooks to be called later: none of them runs before the outermost entity is
complete. `Action` is an operation on a store; `Build.finish` makes one of a build
by running its hooks, if it succeeded, in the order in which they were left.
-/

namespace Dossier

/-- A hook and the complete entity it is called with. -/
structure HookCall where
  hook : Hook
  entity : Entity

/-- A build works on a store, and gives a value with the hook calls it leaves or fails. -/
def Build (α : Type) : Type :=
  Store → Except EntityError (α × List HookCall) × Store

namespace Build

variable {α β : Type}

protected def pure (value : α) : Build α := fun store => (.ok (value, []), store)

/-- Builds one after the other. The hook calls of the first come first. -/
protected def bind (x : Build α) (f : α → Build β) : Build β := fun store =>
  match x store with
  | (.error e, store) => (.error e, store)
  | (.ok (value, calls), store) =>
    match f value store with
    | (.error e, store) => (.error e, store)
    | (.ok (result, more), store) => (.ok (result, calls ++ more), store)

instance : Monad Build where
  pure := Build.pure
  bind := Build.bind

instance : LawfulMonad Build := LawfulMonad.mk' Build
  (by
    intro α x
    funext store
    simp only [Functor.map, Build.bind, Function.comp, Build.pure]
    rcases x store with ⟨_ | ⟨value, calls⟩, store⟩ <;> simp)
  (by
    intro α β value f
    funext store
    simp only [Bind.bind, Pure.pure, Build.bind, Build.pure]
    rcases f value store with ⟨_ | ⟨value, calls⟩, store⟩ <;> simp)
  (by
    intro α β γ x f g
    funext store
    simp only [Bind.bind, Build.bind]
    rcases x store with ⟨_ | ⟨value, calls⟩, store⟩
    · rfl
    · dsimp only
      rcases f value store with ⟨_ | ⟨value, more⟩, store⟩
      · rfl
      · dsimp only
        rcases g value store with ⟨_ | ⟨value, rest⟩, store⟩ <;> simp [List.append_assoc])

def fail (error : EntityError) : Build α := fun store => (.error error, store)

def ofExcept : Except EntityError α → Build α
  | .ok value => pure value
  | .error error => fail error

/-- The outcome of a build as a value. The hook calls of a failed one are dropped. -/
def attempt (x : Build α) : Build (Except EntityError α) := fun store =>
  match x store with
  | (.error e, store) => (.ok (.error e, []), store)
  | (.ok (value, calls), store) => (.ok (.ok value, calls), store)

/-- The build with its error seen from outside a segment. -/
def within (segment : String) (x : Build α) : Build α := fun store =>
  match x store with
  | (.error e, store) => (.error (e.within segment), store)
  | result => result

/-- Leaves hook calls. -/
def leave (calls : List HookCall) : Build Unit := fun store => (.ok ((), calls), store)

/-- Draws a fresh identifier. -/
def drawId (ids : IdSource) (typeName : String) : Build Identifier := fun store =>
  let n := store.supply.drawn + 1
  (.ok (ids.draw n typeName, []), { store with supply.drawn := n })

/-- Reads the clock. -/
def readClock (clock : Clock) : Build Timestamp := fun store =>
  let n := store.supply.readings + 1
  (.ok (clock.reading n, []), { store with supply.readings := n })

/-- Asks a deferred default of a context. What it does to the store is done at once. -/
def ask (ctx : Context) (name : String) (scope : DefaultScope) : Build (Option Value) := fun store =>
  let (raw?, store) := ctx.defaults name scope store
  (.ok (raw?, []), store)

end Build

/-- An operation on a store that may fail. -/
abbrev Action := ExceptT EntityError (StateM Store)

namespace Action

variable {α : Type}

/-- Changes the store. -/
def update (change : Store → Store) : Action Unit := modify change

/-- Empties the cache. -/
def clearCache : Action Unit := update fun store => { store with cache := {} }

/-- The operation with its error seen from outside a segment. -/
def within (segment : String) (x : Action α) : Action α :=
  ExceptT.mk do
    match ← x.run with
    | .ok value => return .ok value
    | .error e => return .error (e.within segment)

end Action

namespace Context

def runHooks (ctx : Context) (calls : List HookCall) (store : Store) : Store :=
  calls.foldl (fun store call => ctx.runHook call.hook call.entity store) store

end Context

/-- A build as an operation: what it did to the store is done in any case, its hooks run if it
succeeded. -/
def Build.finish {α : Type} (ctx : Context) (x : Build α) : Action α :=
  ExceptT.mk fun store =>
    match x store with
    | (.error e, store) => (.error e, store)
    | (.ok (value, calls), store) => (.ok value, ctx.runHooks calls store)

end Dossier
