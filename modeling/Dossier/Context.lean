import Dossier.Cache
import Dossier.Config
import Dossier.Identifier.Source
import Dossier.Registry

/-!
# Contexts

A context is what building and parsing depend on: the schema, the settings, the
codec, the sources of identifiers and of time, the hooks, the deferred defaults,
and the registries of types. It does not change while entities are built. What
does change is a `Store`: the identity cache, how much has been drawn from the
sources, and a journal for hooks to write to. Several contexts may work on one
cache.
-/

namespace Dossier

/-- How often the sources of identifiers and of time have been asked. -/
structure Supply where
  drawn : Nat := 0
  readings : Nat := 0
  deriving DecidableEq, Repr

structure Store where
  cache : Cache := {}
  supply : Supply := {}
  /-- What hooks have written, in order. -/
  journal : List String := []

/-- What a deferred default is told besides the context. -/
structure DefaultScope where
  /-- The type whose field is filled. -/
  type : EntityType
  /-- The values of the fields before it. -/
  assigned : Mapping

structure Context where
  schema : Schema
  config : Config := {}
  codec : Codec := .json Codec.defaultIndent
  ids : IdSource
  clock : Clock
  /-- What the hooks with names do. -/
  hooks : (name : String) → Entity → Store → Store := fun _ _ store => store
  /-- What the defaults with names give, and what they do. Like hooks they may do all that can be
  done with the context: draw identifiers, read the clock, look into the cache, or build entities,
  whose hooks run at once. -/
  defaults : (name : String) → DefaultScope → Store → Option Value × Store :=
    fun _ _ store => (none, store)
  /-- The types that documents name under their `type` key. -/
  types : Registry := { name := "types", key := "type" }
  /-- The types by either of their names. -/
  names : Table TypeKey := []
  /-- The registries of the polymorphic fields. -/
  variants : Table Registry := []

namespace Context

/-- Takes over settings, and with them JSON of the indent set. -/
def withConfig (ctx : Context) (config : Config) : Context :=
  { ctx with config, codec := .json config.prettyIndent.toNat }

def typeOf (ctx : Context) (type : TypeKey) : EntityType := ctx.schema.typeOf type

def registry (ctx : Context) (name : String) : Except EntityError Registry :=
  match ctx.variants.get? name with
  | some registry => .ok registry
  | none => .error (.unknownRegistry name)

/-- The type of a name, either of messages or of documents. -/
def typeNamed (ctx : Context) (name : String) : Except EntityError TypeKey :=
  match ctx.names.get? name with
  | some type => .ok type
  | none => .error (.unknownType name)

/-- Whether an entity of the type keeps properties that are not declared. -/
def keepsExtras (ctx : Context) (t : EntityType) : Bool :=
  t.isOpen || ctx.config.allowCustomProperties

/-- Puts an entity into the cache, if it has an identifier and the context caches at all. -/
def cacheEntity (ctx : Context) (e : Entity) (store : Store) : Store :=
  if ctx.config.cacheEntities then { store with cache := store.cache.register ctx.schema e }
  else store

def runHook (ctx : Context) : Hook → Entity → Store → Store
  | .cacheEntity, e, store => ctx.cacheEntity e store
  | .named name, e, store => ctx.hooks name e store

end Context

/-! ## Registration -/

/-- A change of a context that may fail. What was changed before a failure stays. -/
abbrev Registration := ExceptT EntityError (StateM Context)

namespace Registration

/-- Makes a type known by both of its names. Another type of the same name is replaced. -/
def registerNames (type : TypeKey) : Registration Unit :=
  modify fun ctx =>
    let t := ctx.typeOf type
    { ctx with names := (ctx.names.insert t.name type).insert t.typeName type }

/-- Makes a type known to documents by its tag, and by its names. -/
def registerType (type : TypeKey) : Registration Unit := do
  let ctx ← get
  let types ← ctx.types.register (ctx.typeOf type).typeName type
  set { ctx with types }
  registerNames type

/-- Makes an empty registry. One that is there stays as it is. -/
def defineRegistry (name key : String) : Registration Unit :=
  modify fun ctx =>
    if ctx.variants.contains name then ctx
    else { ctx with variants := ctx.variants.insert name { name, key } }

/-- Adds a type to a registry under a tag. -/
def registerTagged (registry tag : String) (type : TypeKey) : Registration Unit := do
  let ctx ← get
  let entries ← (← ctx.registry registry).register tag type
  set { ctx with variants := ctx.variants.insert registry entries }
  registerNames type

end Registration

end Dossier
