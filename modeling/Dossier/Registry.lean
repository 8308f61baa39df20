import Dossier.Schema.EntityType

/-!
# Registries

A registry picks an entity type by a tag that a mapping holds under the
registry's key. A tag is registered once: registering it again is refused, so
that no type takes the place of another.
-/

namespace Dossier

structure Registry where
  name : String
  /-- The key of a mapping that holds the tag. -/
  key : String
  entries : Table TypeKey := []

namespace Registry

def get? (r : Registry) (tag : String) : Option TypeKey := r.entries.get? tag

def register (r : Registry) (tag : String) (type : TypeKey) : Except EntityError Registry :=
  if r.entries.contains tag then .error (.duplicateRegistration r.name tag)
  else .ok { r with entries := r.entries.insert tag type }

/-- The type under a tag, which must be registered. -/
def lookup (r : Registry) (tag : String) : Except EntityError TypeKey :=
  match r.get? tag with
  | some type => .ok type
  | none => .error (.unknownDiscriminator r.name tag)

/-- The type of a mapping, by its tag. -/
def pick (r : Registry) (raw : Mapping) : Except EntityError TypeKey :=
  match (raw.get? r.key).bind (·.string?) with
  | some tag => r.lookup tag
  | none => .error (.missingDiscriminator r.name r.key)

/-- Whether some tag stands for the type. -/
def knowsType (schema : Schema) (r : Registry) (t : EntityType) : Bool :=
  r.entries.any fun (_, type) => (schema.typeOf type).sameAs t

def tags (r : Registry) : List String := r.entries.keys

def size (r : Registry) : Nat := r.entries.length

def isEmpty (r : Registry) : Bool := r.entries.isEmpty

end Registry

end Dossier
