import Dossier.Schema.EntityType
import Dossier.Timestamp.Text

/-!
# Entities and their canonical form

What can be read off an entity, and its canonical form: the type's tag, the
declared fields in the order of their declaration, then the custom properties.
Unset fields are left out. Entities are equal if their canonical forms are the
same document.
-/

namespace Dossier

/-- The key under which a record holds a referenced identifier. -/
def idrefKey : String := "idref"

/-- The key under which a record holds the relationship. -/
def relationshipKey : String := "relationship"

mutual

def Value.toJson (schema : Schema) : Value → Json
  | .bool b => .bool b
  | .integer i => .ofInt64 i
  | .number (.finite x) => .number (.float x)
  | .number _ => .null
  | .string s => .string s
  | .timestamp t => .string t.text
  | .list items => .array (itemsToJson schema items)
  | .mapping entries => .object (entriesToJson schema entries)
  | .entity e => .object (Entity.canonical schema e)
  | .related r => .object (RelatedObject.canonical schema r)

def itemsToJson (schema : Schema) : List Value → List Json
  | [] => []
  | item :: items => Value.toJson schema item :: itemsToJson schema items

def entriesToJson (schema : Schema) : List (String × Value) → List (String × Json)
  | [] => []
  | (key, value) :: entries => (key, Value.toJson schema value) :: entriesToJson schema entries

def Entity.canonical (schema : Schema) : Entity → Table Json
  | ⟨typeKey, values, extras⟩ =>
    (schema.typeOf typeKey).arrange .string (entriesToJson schema values)
      (entriesToJson schema extras)

/-- An inline record is the entity's own; a reference holds the identifier alone. -/
def Holding.canonical (schema : Schema) : Holding → Table Json
  | .inline e => Entity.canonical schema e
  | .byReference idref => [(idrefKey, .string idref)]

def RelatedObject.canonical (schema : Schema) : RelatedObject → Table Json
  | ⟨holding, none⟩ => Holding.canonical schema holding
  | ⟨holding, some relationship⟩ =>
    Table.insert (Holding.canonical schema holding) relationshipKey (.string relationship)

end

namespace Entity

def toJson (schema : Schema) (e : Entity) : Json := .object (e.canonical schema)

/-- Entities are the same if their canonical forms are. -/
def same (schema : Schema) (a b : Entity) : Bool := (a.toJson schema).same (b.toJson schema)

/-! ## Reading an entity -/

def type (schema : Schema) (e : Entity) : EntityType := schema.typeOf e.typeKey

/-- The value of a declared field or of a custom property. -/
def get? (e : Entity) (name : String) : Option Value :=
  (Table.get? e.values name).or (Table.get? e.extras name)

def isSet (e : Entity) (name : String) : Bool := (e.get? name).isSome

def string? (e : Entity) (name : String) : Option String := (e.get? name).bind (·.string?)

def bool? (e : Entity) (name : String) : Option Bool := (e.get? name).bind (·.bool?)

def integer? (e : Entity) (name : String) : Option Int64 := (e.get? name).bind (·.integer?)

def number? (e : Entity) (name : String) : Option Binary64 := (e.get? name).bind (·.number?)

def timestamp? (e : Entity) (name : String) : Option Timestamp :=
  (e.get? name).bind (·.timestamp?)

def list? (e : Entity) (name : String) : Option (List Value) := (e.get? name).bind (·.list?)

/-- The strings among the items of a list. -/
def strings (e : Entity) (name : String) : List String :=
  ((e.list? name).getD []).filterMap (·.string?)

def entity? (e : Entity) (name : String) : Option Entity := (e.get? name).bind (·.entity?)

def related? (e : Entity) (name : String) : Option RelatedObject :=
  (e.get? name).bind (·.related?)

/-- The identifier, if the type has a property for it and the entity has it set. -/
def identifier? (schema : Schema) (e : Entity) : Option String :=
  (e.type schema).idField.bind e.string?

/-- The declared fields that are set, in the order of their declaration. -/
def fields (schema : Schema) (e : Entity) : List (String × Value) :=
  (e.type schema).fields.filterMap fun f => (Table.get? e.values f.name).map (f.name, ·)

/-- The identifier, or the name of the type. -/
def display (schema : Schema) (e : Entity) : String :=
  (e.identifier? schema).getD (e.type schema).name

/-- Whether the entity is of a type. -/
def isOf (schema : Schema) (e : Entity) (t : EntityType) : Bool := (e.type schema).sameAs t

/-- The identifier of an entity that must have one. -/
def requireIdentifier (schema : Schema) (e : Entity) : Except EntityError String :=
  match e.identifier? schema with
  | some identifier => .ok identifier
  | none => .error (.missingIdentifier (e.type schema).name)

end Entity

end Dossier
