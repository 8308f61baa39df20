import Dossier.Construction.Entity
import Dossier.Value.Json

/-!
# Operations on entities

Making entities, changing their properties, and reading and resolving related
objects. An operation that fails leaves the entity as it was, and runs no hook of
its own: of the store there is nothing changed but what was drawn from the
sources of identifiers and time, and what deferred defaults have done.
-/

namespace Dossier

namespace Entity

/-- Builds an entity from a mapping and runs the hooks of all that was built. -/
def ofMapping (ctx : Context) (type : TypeKey) (supplied : Mapping) : Action Entity :=
  (ctx.build type supplied).finish ctx

/-- Builds an entity from properties, where the last value of a repeated name counts. -/
def ofProperties (ctx : Context) (type : TypeKey) (properties : List (String × Value)) :
    Action Entity :=
  ofMapping ctx type (Table.ofEntries properties)

/-- Builds an entity from a decoded document, which must be an object. -/
def ofJson (ctx : Context) (type : TypeKey) : Json → Action Entity
  | .object entries => ofMapping ctx type (Mapping.ofJson entries)
  | json => throw (.notAMapping json.kind)

/-- The entity with a declared field changed, by the same coercion as in construction. -/
def setField (ctx : Context) (e : Entity) (f : Field) (value : Value) : Build Entity := do
  let t := e.type ctx.schema
  let value ← f.coerce ctx ctx.build t value
  let changed : Entity := { e with values := Table.insert e.values f.name value }
  match f.hook with
  | some hook => Build.leave [⟨hook, changed⟩]
  | none => pure ()
  return changed

/-- Sets a property. A name that is not declared is a custom property, if those are kept. -/
def set (ctx : Context) (e : Entity) (name : String) (value : Value) : Action Entity := do
  let t := e.type ctx.schema
  match t.field? name with
  | some f => (e.setField ctx f value).finish ctx
  | none =>
    if ctx.keepsExtras t then return { e with extras := Table.insert e.extras name value }
    else throw (.unexpectedProperties t.name [name])

/-- Puts the entity into the cache, whatever the settings, and gives back the one it replaces. -/
def put (ctx : Context) (e : Entity) : Action (Option Entity) := do
  let (replaced, cache) ← (← get).cache.put ctx.schema e
  Action.update fun store => { store with cache }
  return replaced

/-- Clears a property that is not required. Gives back its value and the entity without it. -/
def unset (schema : Schema) (e : Entity) (name : String) :
    Except EntityError (Option Value × Entity) :=
  let t := e.type schema
  match t.field? name with
  | some f =>
    if f.isRequired then .error (.missingProperties t.name [name])
    else .ok (Table.get? e.values name, { e with values := Table.erase e.values name })
  | none => .ok (Table.get? e.extras name, { e with extras := Table.erase e.extras name })

end Entity

namespace RelatedObject

/-- Reads a record that is presented in a form. -/
def ofMappingAs (ctx : Context) (type : TypeKey) (record : Mapping) (shown : Presentation) :
    Action RelatedObject :=
  (ofRecord ctx.build type record shown).finish ctx

/-- Reads a record, as a reference if it has an identifier to refer to. -/
def ofMapping (ctx : Context) (type : TypeKey) (record : Mapping) : Action RelatedObject :=
  ofMappingAs ctx type record (presentationOf record)

/-- A related entity that has been found, and where. -/
inductive Found where
  | inline (entity : Entity)
  | cached (entity : Entity)

def Found.entity : Found → Entity
  | .inline e => e
  | .cached e => e

/-- The related entity: the one held inline, or the one that the cache has. -/
def find (cache : Cache) (r : RelatedObject) : Except EntityError Found :=
  match r.holding with
  | .inline e => .ok (.inline e)
  | .byReference idref => .cached <$> cache.lookup idref

end RelatedObject

end Dossier
