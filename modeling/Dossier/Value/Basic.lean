import Dossier.Binary64.Basic
import Dossier.Table
import Dossier.Timestamp.Basic

/-!
# Values and entities

A value is what callers supply and what the fields of an entity hold. Supplied
values are scalars, lists and mappings; coercion turns them into timestamps,
entities and related objects. An entity names its type by a key, which a schema
interprets, and keeps two tables: the values of declared fields and the custom
properties. A related object is an entity held inline or by its identifier.

Mappings occur inside values, so that their keys are distinct is a predicate
(`Table.Distinct`) and not part of the type.
-/

namespace Dossier

/-- The name of an entity type within a schema. -/
structure TypeKey where
  name : String
  deriving DecidableEq, Repr

mutual

inductive Value where
  | bool (value : Bool)
  | integer (value : Int64)
  | number (value : Binary64)
  | string (value : String)
  | timestamp (value : Timestamp)
  | list (items : List Value)
  | mapping (entries : List (String × Value))
  | entity (value : Entity)
  | related (value : RelatedObject)

/-- An instance of an entity type. -/
structure Entity where
  typeKey : TypeKey
  /-- The values of the declared fields that are set. -/
  values : List (String × Value)
  /-- The custom properties. -/
  extras : List (String × Value)

/-- How a related entity is held. -/
inductive Holding where
  | inline (entity : Entity)
  | byReference (idref : String)

/-- A related entity, with an optional word for the relationship. -/
structure RelatedObject where
  holding : Holding
  relationship : Option String

end

/-- Properties by name, in order. -/
abbrev Mapping := Table Value

namespace Value

/-- The sorts of value, as error messages name them. -/
inductive Kind where
  | boolean | integer | number | string | timestamp | list | mapping | entity | related
  deriving DecidableEq, Repr

def Kind.name : Kind → String
  | .boolean => "boolean"
  | .integer => "integer"
  | .number => "number"
  | .string => "string"
  | .timestamp => "timestamp"
  | .list => "list"
  | .mapping => "mapping"
  | .entity => "entity"
  | .related => "related object"

def kind : Value → Kind
  | bool _ => .boolean
  | integer _ => .integer
  | number _ => .number
  | string _ => .string
  | timestamp _ => .timestamp
  | list _ => .list
  | mapping _ => .mapping
  | entity _ => .entity
  | related _ => .related

/-! ## Views

Each gives the content of one sort of value and nothing for the others. Only
`number?` converts: an integer has a value as a number. -/

def bool? : Value → Option Bool
  | bool b => some b
  | _ => none

def integer? : Value → Option Int64
  | integer i => some i
  | _ => none

def number? : Value → Option Binary64
  | number x => some x
  | integer i => some (.ofInt i.toInt)
  | _ => none

def string? : Value → Option String
  | string s => some s
  | _ => none

def timestamp? : Value → Option Timestamp
  | timestamp t => some t
  | _ => none

def list? : Value → Option (List Value)
  | list items => some items
  | _ => none

def mapping? : Value → Option Mapping
  | mapping entries => some entries
  | _ => none

def entity? : Value → Option Entity
  | entity e => some e
  | _ => none

def related? : Value → Option RelatedObject
  | related r => some r
  | _ => none

/-! ## Depth

Building an entity descends into the mappings of a supplied value, and into
nothing else: entities that are there already are kept as they are. -/

mutual

/-- How many mappings nest in a value. -/
def depth : Value → Nat
  | list items => itemsDepth items
  | mapping entries => mappingDepth entries
  | _ => 0

def itemsDepth : List Value → Nat
  | [] => 0
  | item :: items => max (depth item) (itemsDepth items)

/-- How many mappings nest in a mapping, itself included. -/
def mappingDepth : List (String × Value) → Nat
  | [] => 1
  | (_, value) :: entries => max (depth value + 1) (mappingDepth entries)

end

end Value

def Mapping.depth (m : Mapping) : Nat := Value.mappingDepth m

end Dossier
