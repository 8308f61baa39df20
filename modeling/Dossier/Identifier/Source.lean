import Dossier.Identifier.Basic

/-!
# Sources of fresh identifiers

A source gives the identifier of each draw by the number of the draw, so a
run of draws is a function of how many there were before it. `IdSequence`
keeps that number itself and can start again.
-/

namespace Dossier

/-- The identifier given at the `n`-th draw, counted from 1, for a type name. -/
structure IdSource where
  draw : (n : Nat) → (typeName : String) → Identifier

namespace Identifier

/-- The identifier of the `n`-th draw in sequence: a version 4 UUID whose last group
counts the draws modulo 2^48. -/
def sequential (n : Nat) (typeName : String) : Identifier :=
  ⟨typeName, Uuid.ofNat (0x0000000000004000_8000000000000000 + n % 0x1000000000000)⟩

end Identifier

namespace IdSource

/-- Counts the draws: each identifier is a function of its number. -/
def sequential : IdSource := ⟨Identifier.sequential⟩

/-- Version 4 UUIDs from a source of random bits. -/
def random (bits : Nat → BitVec 128) : IdSource :=
  ⟨fun n typeName => ⟨typeName, Uuid.ofRandomBits (bits n)⟩⟩

end IdSource

/-- A sequence of identifiers, with the number of draws since its start. -/
structure IdSequence where
  drawn : Nat := 0
  deriving DecidableEq, Repr

namespace IdSequence

def generate (ids : IdSequence) (typeName : String) : Identifier × IdSequence :=
  (Identifier.sequential (ids.drawn + 1) typeName, ⟨ids.drawn + 1⟩)

/-- Starts the sequence again. -/
def reset (_ : IdSequence) : IdSequence := {}

end IdSequence

end Dossier
