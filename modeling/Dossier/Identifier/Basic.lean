import Dossier.FormatError
import Dossier.Uuid

/-!
# Identifiers

An identifier names one entity: the name of the entity's type, two hyphens, and
a UUID in lower-case hyphenated form. The type name may itself hold hyphens, so
the text is cut at its last pair of them. Only the form that `text` writes is
read, so equal identifiers have equal texts.
-/

namespace Dossier

structure Identifier where
  typeName : String
  uuid : Uuid
  deriving DecidableEq, Repr

namespace Identifier

/-- The separator between type name and UUID. -/
def separator : String := "--"

def text (id : Identifier) : String :=
  id.typeName ++ separator ++ id.uuid.text

/-- The text before and after its last two adjoining hyphens. -/
def cutLast : List Char → Option (List Char × List Char)
  | [] => none
  | c :: rest =>
    match cutLast rest with
    | some (before, after) => some (c :: before, after)
    | none =>
      match c, rest with
      | '-', '-' :: after => some ([], after)
      | _, _ => none

/-- Reads an identifier. A UUID part in another form than the hyphenated lower-case one
makes the identifier malformed; one in no form at all is reported as such. -/
def parse (s : String) : Except FormatError Identifier :=
  match cutLast s.toList with
  | none => .error (.identifier s)
  | some (typeName, digits) =>
    if typeName = [] then .error (.identifier s)
    else
      match Uuid.ofChars? digits with
      | none => .error (.uuid (String.ofList digits))
      | some uuid =>
        if uuid.chars = digits then .ok ⟨String.ofList typeName, uuid⟩
        else .error (.identifier s)

def parse? (s : String) : Option Identifier := (parse s).toOption

def isOfType (id : Identifier) (typeName : String) : Bool :=
  id.typeName == typeName

/-- Identifiers are ordered by type name, then by UUID. -/
instance : Ord Identifier where
  compare a b := (compare a.typeName b.typeName).then (compare a.uuid.toNat b.uuid.toNat)

end Identifier

end Dossier
