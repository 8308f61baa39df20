import Dossier.Entity.Basic

/-!
# The identity cache

The cache holds entities under their identifiers. A later entity takes the
place of an earlier one with the same identifier. Entities are values: what is
in the cache does not change when its owner goes on to change a copy.
-/

namespace Dossier

structure Cache where
  entries : Table Entity := []

namespace Cache

def get? (cache : Cache) (identifier : String) : Option Entity := cache.entries.get? identifier

def contains (cache : Cache) (identifier : String) : Bool := cache.entries.contains identifier

/-- The entity under an identifier, which must be there. -/
def lookup (cache : Cache) (identifier : String) : Except EntityError Entity :=
  match cache.get? identifier with
  | some e => .ok e
  | none => .error (.unresolvedReference identifier)

/-- Puts an entity under its identifier, and gives back the one it replaces. -/
def put (schema : Schema) (cache : Cache) (e : Entity) :
    Except EntityError (Option Entity × Cache) := do
  let identifier ← e.requireIdentifier schema
  return (cache.get? identifier, ⟨cache.entries.insert identifier e⟩)

def size (cache : Cache) : Nat := cache.entries.length

def isEmpty (cache : Cache) : Bool := cache.entries.isEmpty

/-- The cache with an entity under its identifier, if it has one. -/
def register (schema : Schema) (cache : Cache) (e : Entity) : Cache :=
  match cache.put schema e with
  | .ok (_, cache) => cache
  | .error _ => cache

end Cache

end Dossier
