import Dossier.Entity.Operations

/-!
# Lists of entities

A list of entities, or of related objects, of one type. In a document it is an
array, and in a field a list of values. Its items are built one after the
other, each complete before the next.
-/

namespace Dossier

/-- What a list of an entity type can hold. -/
class Listable (α : Type) where
  /-- Whether the element belongs to a list of the type. -/
  fits : Schema → EntityType → α → Bool
  ofValue? : Value → Option α
  toValue : α → Value
  ofJson : Context → TypeKey → Json → Action α
  toJson : Schema → α → Json
  same : Schema → α → α → Bool

instance : Listable Entity where
  fits schema t e := e.isOf schema t
  ofValue? := Value.entity?
  toValue := .entity
  ofJson := Entity.ofJson
  toJson := Entity.toJson
  same := Entity.same

instance : Listable RelatedObject where
  fits schema t r := r.embeds schema t
  ofValue? := Value.related?
  toValue := .related
  ofJson
    | ctx, type, .object entries => RelatedObject.ofMapping ctx type (Mapping.ofJson entries)
    | _, _, json => throw (.notAMapping json.kind)
  toJson := RelatedObject.toJson
  same := RelatedObject.same

/-- The list of a type. -/
structure EntityList (α : Type) where
  elementType : TypeKey
  items : List α := []

namespace EntityList

variable {α : Type} [Listable α]

/-- Adds an item at the end, if it is of the type. -/
def push (schema : Schema) (list : EntityList α) (item : α) :
    Except EntityError (EntityList α) :=
  let t := schema.typeOf list.elementType
  if Listable.fits schema t item then .ok { list with items := list.items ++ [item] }
  else .error <|
    .invalidProperty t.name ("[" ++ toString list.items.length ++ "]") (.notOfType t.name)

/-- The list of items all of which are of the type. The first that is not is refused. -/
def ofItems (schema : Schema) (elementType : TypeKey) (items : List α) :
    Except EntityError (EntityList α) :=
  items.foldlM (push schema) { elementType }

/-- The list in a field, if it is declared to hold lists of entities or related objects. A
field that is not set holds the empty list. -/
def ofField? (schema : Schema) (e : Entity) (name : String) : Option (EntityList α) := do
  let f ← (e.type schema).field? name
  if f.isMultiple then
    let elementType ← match f.kind with
      | .entity type => some type
      | .related type => some type
      | _ => none
    return { elementType, items := ((e.list? name).getD []).filterMap Listable.ofValue? }
  else none

/-- Builds the items of an array, the first of which has the index given. -/
def itemsOfJson (ctx : Context) (elementType : TypeKey) : (index : Nat) → List Json →
    Action (List α)
  | _, [] => return []
  | index, json :: rest => do
    let item ← Action.within ("[" ++ toString index ++ "]")
      (Listable.ofJson ctx elementType json)
    return item :: (← itemsOfJson ctx elementType (index + 1) rest)

/-- Builds the list of a decoded array. -/
def ofJson (ctx : Context) (elementType : TypeKey) : Json → Action (EntityList α)
  | .array items => do return { elementType, items := ← itemsOfJson ctx elementType 0 items }
  | json => throw (.notAList json.kind)

def size (list : EntityList α) : Nat := list.items.length

def isEmpty (list : EntityList α) : Bool := list.items.isEmpty

def get? (list : EntityList α) (index : Nat) : Option α := list.items[index]?

def toValue (list : EntityList α) : Value := .list (list.items.map Listable.toValue)

def toJson (schema : Schema) (list : EntityList α) : Json :=
  .array (list.items.map (Listable.toJson schema))

def sameItems (schema : Schema) : List α → List α → Bool
  | [], [] => true
  | x :: xs, y :: ys => Listable.same schema x y && sameItems schema xs ys
  | _, _ => false

/-- Lists are the same if their types are and their items are, one by one. -/
def same (schema : Schema) (a b : EntityList α) : Bool :=
  (schema.typeOf a.elementType).sameAs (schema.typeOf b.elementType) &&
    sameItems schema a.items b.items

end EntityList

end Dossier
