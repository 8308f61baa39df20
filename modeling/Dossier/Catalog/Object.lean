import Dossier.Catalog.Types
import Dossier.EntityList

/-!
# Objects

An object as an entity that is known to be one. Relating another object to it
adds a related object at the end of its list and caches the object as it then
is.
-/

namespace Dossier.Catalog

/-- An entity of type Object. -/
structure Object where
  entity : Entity

namespace Object

/-- The entity as an object, if it is one. -/
def ofEntity (schema : Schema) (e : Entity) : Except EntityError Object :=
  if e.isOf schema objectType then .ok ⟨e⟩ else .error (.unknownType (e.type schema).name)

def ofProperties (ctx : Context) (properties : List (String × Value)) : Action Object :=
  mk <$> Entity.ofProperties ctx objectKey properties

/-- An object with a fresh identifier around its properties, if there are any. -/
def around (ctx : Context) (properties : Option Entity) : Action Object :=
  ofProperties ctx (properties.toList.map fun e => ("properties", .entity e))

def id (schema : Schema) (o : Object) : String := (o.entity.identifier? schema).getD ""

def properties? (o : Object) : Option Entity := o.entity.entity? "properties"

def domainSpecificProperties? (o : Object) : Option Entity :=
  o.entity.entity? "domain_specific_object_properties"

def description? (o : Object) : Option String := o.entity.string? "description"

def state? (o : Object) : Option String := o.entity.string? "state"

def hasChanged? (o : Object) : Option Bool := o.entity.bool? "has_changed"

def relatedObjects (schema : Schema) (o : Object) : EntityList RelatedObject :=
  (EntityList.ofField? schema o.entity "related_objects").getD { elementType := objectKey }

/-- Relates another object, inline or by its identifier, and caches the changed object. -/
def addRelated (ctx : Context) (o related : Object) (relationship : String) (isInline : Bool) :
    Action Object := do
  let related ← RelatedObject.ofEntity ctx.schema related.entity (some relationship) isInline
  let list ← (o.relatedObjects ctx.schema).push ctx.schema related
  let changed ← o.entity.set ctx "related_objects" list.toValue
  Action.update (ctx.cacheEntity changed)
  return ⟨changed⟩

end Object

end Dossier.Catalog
