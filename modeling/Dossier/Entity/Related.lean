import Dossier.Entity.Basic

/-!
# Related objects

A related object holds its entity inline or by its identifier. Inline ones can
be turned into references, which reads the identifier once and drops the
entity; the way back goes through the identity cache.
-/

namespace Dossier.RelatedObject

def inline (e : Entity) (relationship : Option String) : RelatedObject :=
  ⟨.inline e, relationship⟩

def byReference (idref : String) (relationship : Option String) : RelatedObject :=
  ⟨.byReference idref, relationship⟩

/-- The object as a reference. A reference stays what it is. -/
def toReference (schema : Schema) (r : RelatedObject) : Except EntityError RelatedObject :=
  match r.holding with
  | .inline e => (byReference · r.relationship) <$> e.requireIdentifier schema
  | .byReference _ => .ok r

/-- Relates an entity, inline or by its identifier. -/
def ofEntity (schema : Schema) (e : Entity) (relationship : Option String) (isInline : Bool) :
    Except EntityError RelatedObject :=
  if isInline then .ok (inline e relationship)
  else (inline e relationship).toReference schema

/-- The referenced identifier of a reference. -/
def idref? (r : RelatedObject) : Option String :=
  match r.holding with
  | .byReference idref => some idref
  | .inline _ => none

/-- The entity of an inline object. -/
def embedded? (r : RelatedObject) : Option Entity :=
  match r.holding with
  | .inline e => some e
  | .byReference _ => none

def isInline (r : RelatedObject) : Bool := r.embedded?.isSome

/-- The identifier of the related entity, in either form. -/
def target? (schema : Schema) (r : RelatedObject) : Option String :=
  match r.holding with
  | .inline e => e.identifier? schema
  | .byReference idref => some idref

/-- Whether an inline entity is of a type. A reference may be to any. -/
def embeds (schema : Schema) (r : RelatedObject) (t : EntityType) : Bool :=
  match r.holding with
  | .inline e => e.isOf schema t
  | .byReference _ => true

def display (schema : Schema) (r : RelatedObject) : String :=
  match r.holding with
  | .inline e => "Related: " ++ e.display schema
  | .byReference idref => "Related: " ++ idref

def toJson (schema : Schema) (r : RelatedObject) : Json := .object (r.canonical schema)

/-- Related objects are the same if how they are held and the relationship are. -/
def same (schema : Schema) (a b : RelatedObject) : Bool :=
  a.relationship == b.relationship &&
  match a.holding, b.holding with
  | .inline x, .inline y => x.same schema y
  | .byReference x, .byReference y => x == y
  | _, _ => false

end Dossier.RelatedObject
