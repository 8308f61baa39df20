import Dossier.Catalog.Types
import Dossier.Entity.Operations

/-!
# Groupings

A grouping as an entity that is known to be one, with its properties by name,
and a draft that collects properties before anything is checked.
-/

namespace Dossier.Catalog

/-- An entity of type Grouping. -/
structure Grouping where
  entity : Entity

namespace Grouping

/-- The entity as a grouping, if it is one. -/
def ofEntity (schema : Schema) (e : Entity) : Except EntityError Grouping :=
  if e.isOf schema groupingType then .ok ⟨e⟩ else .error (.unknownType (e.type schema).name)

def id (schema : Schema) (g : Grouping) : String := (g.entity.identifier? schema).getD ""

def created? (g : Grouping) : Option Timestamp := g.entity.timestamp? "created"

def modified? (g : Grouping) : Option Timestamp := g.entity.timestamp? "modified"

def name? (g : Grouping) : Option String := g.entity.string? "name"

def description? (g : Grouping) : Option String := g.entity.string? "description"

def context (g : Grouping) : String := (g.entity.string? "context").getD ""

def objectRefs (g : Grouping) : List String := g.entity.strings "object_refs"

def labels (g : Grouping) : List String := g.entity.strings "labels"

def confidence? (g : Grouping) : Option Int64 := g.entity.integer? "confidence"

def isRevoked (g : Grouping) : Bool := (g.entity.bool? "revoked").getD false

/-! ## Drafts -/

/-- The properties of a grouping to be. Lists are collected item by item. -/
structure Draft where
  properties : Mapping := []
  objectRefs : List String := []
  labels : List String := []
  objectMarkingRefs : List String := []

namespace Draft

/-- Sets any property, declared or not. -/
def property (draft : Draft) (name : String) (value : Value) : Draft :=
  { draft with properties := draft.properties.insert name value }

def id (draft : Draft) (identifier : String) : Draft :=
  draft.property "id" (.string identifier)

def created (draft : Draft) (time : Timestamp) : Draft :=
  draft.property "created" (.timestamp time)

def modified (draft : Draft) (time : Timestamp) : Draft :=
  draft.property "modified" (.timestamp time)

def createdByRef (draft : Draft) (identity : String) : Draft :=
  draft.property "created_by_ref" (.string identity)

def name (draft : Draft) (text : String) : Draft := draft.property "name" (.string text)

def description (draft : Draft) (text : String) : Draft :=
  draft.property "description" (.string text)

def context (draft : Draft) (text : String) : Draft := draft.property "context" (.string text)

def revoked (draft : Draft) (value : Bool) : Draft := draft.property "revoked" (.bool value)

def confidence (draft : Draft) (value : Int64) : Draft :=
  draft.property "confidence" (.integer value)

def lang (draft : Draft) (text : String) : Draft := draft.property "lang" (.string text)

def objectRef (draft : Draft) (reference : String) : Draft :=
  { draft with objectRefs := draft.objectRefs ++ [reference] }

def label (draft : Draft) (text : String) : Draft :=
  { draft with labels := draft.labels ++ [text] }

def objectMarkingRef (draft : Draft) (marking : String) : Draft :=
  { draft with objectMarkingRefs := draft.objectMarkingRefs ++ [marking] }

/-- The properties with the lists that are not empty, which replace properties of their names. -/
def toMapping (draft : Draft) : Mapping :=
  let lists : List (String × List String) := [("object_refs", draft.objectRefs),
    ("labels", draft.labels), ("object_marking_refs", draft.objectMarkingRefs)]
  draft.properties.insertAll <| (lists.filter fun (_, items) => !items.isEmpty).map
    fun (name, items) => (name, .list (items.map .string))

/-- Builds the grouping. Only here is anything checked. -/
def build (ctx : Context) (draft : Draft) : Action Grouping :=
  Grouping.mk <$> Entity.ofMapping ctx groupingKey draft.toMapping

end Draft

end Grouping

end Dossier.Catalog
