import Dossier.Error
import Dossier.Identifier.Basic
import Dossier.Value.Basic

/-!
# Validators

A validator is a test of a value that has been coerced. What it refuses, it
refuses with a reason.
-/

namespace Dossier

inductive Validator where
  /-- The string itself. -/
  | equals (expected : String)
  /-- A string that begins so. -/
  | startsWith (start : String)
  /-- An identifier whose text begins so. -/
  | identifierStarting (start : String)
  /-- An integer between two bounds, both included. -/
  | range (least most : Int64)
  | custom (test : Value → Except String Unit)

namespace Validator

/-- Identifiers of a type. -/
def identifierOf (typeName : String) : Validator :=
  .identifierStarting (typeName ++ Identifier.separator)

/-- Whether a text begins with another. -/
def begins (start s : String) : Bool := start.toList.isPrefixOf s.toList

def check : Validator → Value → Except Reason Unit
  | equals expected, value =>
    if value.string? = some expected then .ok () else .error (.notEqual expected)
  | startsWith start, value =>
    if value.string?.any (begins start) then .ok () else .error (.notStarting start)
  | identifierStarting start, value =>
    match value.string? with
    | some s =>
      if !begins start s then .error (.notStarting start)
      else if (Identifier.parse? s).isSome then .ok ()
      else .error .notAnIdentifier
    | none => .error (.notStarting start)
  | range least most, value =>
    if value.integer?.any fun i => least ≤ i && i ≤ most then .ok ()
    else .error (.notBetween least most)
  | custom test, value => (test value).mapError .custom

end Validator

end Dossier
