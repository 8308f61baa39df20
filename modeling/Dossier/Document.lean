import Dossier.Entity.Operations

/-!
# Documents

Where texts, decoded documents and mappings become entities, and entities
become text again. A document names its type under the `type` key, unless the
reader is told the type by name.
-/

namespace Dossier

/-- What an entity can be parsed from. -/
inductive Document where
  /-- A text for the codec of the context. -/
  | text (encoded : String)
  | json (document : Json)
  | mapping (properties : Mapping)

namespace Document

/-- The properties of a document, which must be an object. -/
def toMapping (ctx : Context) : Document → Except EntityError Mapping
  | .mapping properties => .ok properties
  | .json document => ofJson document
  | .text encoded => do ofJson (← ctx.codec.decode encoded)
where
  ofJson : Json → Except EntityError Mapping
    | .object entries => .ok (Mapping.ofJson entries)
    | other => .error (.notAMapping other.kind)

/-- Parses a document as an entity of the type that it names. -/
def parse (ctx : Context) (document : Document) : Action Entity := do
  let properties ← document.toMapping ctx
  let type ← ctx.types.pick properties
  Entity.ofMapping ctx type properties

/-- Parses a document as an entity of the type with a name. -/
def parseAs (ctx : Context) (typeName : String) (document : Document) : Action Entity := do
  let type ← ctx.typeNamed typeName
  let properties ← document.toMapping ctx
  Entity.ofMapping ctx type properties

end Document

/-- The text of an entity, by the codec of the context. -/
def Context.serialize (ctx : Context) (e : Entity) (pretty : Bool) : Except EntityError String :=
  ctx.codec.encode (e.canonical ctx.schema) pretty

/-- The text of an entity as JSON of the default indent. -/
def Entity.serialize (schema : Schema) (e : Entity) (pretty : Bool) : Except EntityError String :=
  (Codec.json Codec.defaultIndent).encode (e.canonical schema) pretty

end Dossier
