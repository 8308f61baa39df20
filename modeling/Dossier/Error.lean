import Dossier.Json.Basic

/-!
# Errors

What can go wrong in building, parsing and resolving entities, as data. An
error below the outermost entity carries its path; several errors found in one
entity are kept in the order found. The wording is in `Reason.text` and
`EntityError.message`, and nowhere else.
-/

namespace Dossier

/-- Why a value was refused for a property. -/
inductive Reason where
  | notAString
  | notABoolean
  | notAnInteger
  | notANumber
  | notATimestamp
  | notAMapping
  | notAnIdentifier
  /-- The identifier names an entity of a type that is not allowed here. -/
  | notReferencing (allowed : List String)
  | notOfType (name : String)
  | notInRegistry (registry : String)
  | notEqual (expected : String)
  | notStarting (start : String)
  | notBetween (least most : Int64)
  | isEmpty
  /-- A reason of a test of the schema's own. -/
  | custom (text : String)
  deriving DecidableEq, Repr

def Reason.text : Reason → String
  | .notAString => "must be a string."
  | .notABoolean => "must be a boolean."
  | .notAnInteger => "must be an integer."
  | .notANumber => "must be a number."
  | .notATimestamp => "must be a valid timestamp."
  | .notAMapping => "must be a mapping."
  | .notAnIdentifier => "must match <object-type>--<UUID>."
  | .notReferencing allowed => "must reference one of: " ++ ", ".intercalate allowed ++ "."
  | .notOfType name => "must be a " ++ name ++ "."
  | .notInRegistry registry => "must be a registered '" ++ registry ++ "' type."
  | .notEqual expected => "must equal '" ++ expected ++ "'."
  | .notStarting start => "must start with '" ++ start ++ "'."
  | .notBetween least most =>
    "must be between " ++ toString least.toInt ++ " and " ++ toString most.toInt ++ "."
  | .isEmpty => "must not be empty."
  | .custom text => text

/-- The place of an error in a document: the segments from the outermost in. -/
abbrev Path := List String

/-- The text of a path: segments joined by points, none before an index in brackets. -/
def Path.text : Path → String
  | [] => ""
  | [segment] => segment
  | segment :: rest =>
    let below := Path.text rest
    segment ++ (if below.toList.head? = some '[' then "" else ".") ++ below

inductive EntityError where
  /-- Required properties for which nothing was supplied. -/
  | missingProperties (typeName : String) (properties : List String)
  /-- Supplied properties that the type does not declare. -/
  | unexpectedProperties (typeName : String) (properties : List String)
  /-- A value that failed coercion or its field's validator. -/
  | invalidProperty (typeName property : String) (reason : Reason)
  /-- No entity is cached under the identifier. -/
  | unresolvedReference (identifier : String)
  /-- Nothing is registered under the tag. -/
  | unknownDiscriminator (registry tag : String)
  /-- A mapping whose type is picked by a tag has none. -/
  | missingDiscriminator (registry key : String)
  | duplicateRegistration (registry tag : String)
  | unknownRegistry (name : String)
  | unknownType (name : String)
  /-- An identifier was needed of an entity that has none. -/
  | missingIdentifier (typeName : String)
  | notAMapping (found : Json.Kind)
  | notAList (found : Json.Kind)
  /-- Several errors of one entity, in the order found. -/
  | multiple (errors : List EntityError)
  /-- An error below the outermost entity. -/
  | atPath (path : Path) (cause : EntityError)
  /-- A text that is not a document. -/
  | malformedText
  /-- Defaults whose values need defaults, deeper than the schema allows. -/
  | endlessDefaults (typeName : String)
  deriving Repr

namespace EntityError

mutual

def message : EntityError → String
  | missingProperties typeName properties =>
    "No values for required properties for " ++ typeName ++ ": (" ++
      ", ".intercalate properties ++ ")."
  | unexpectedProperties typeName properties =>
    "Unexpected properties for " ++ typeName ++ ": (" ++ ", ".intercalate properties ++ ")."
  | invalidProperty typeName property reason =>
    "Invalid value for " ++ typeName ++ " '" ++ property ++ "': " ++ reason.text
  | unresolvedReference identifier =>
    "unresolved reference: no cached entity with identifier '" ++ identifier ++ "'"
  | unknownDiscriminator registry tag =>
    "unknown discriminator '" ++ tag ++ "' in registry '" ++ registry ++ "'"
  | missingDiscriminator registry key =>
    "missing discriminator key '" ++ key ++ "' in registry '" ++ registry ++ "'"
  | duplicateRegistration registry tag =>
    "discriminator '" ++ tag ++ "' is already registered in registry '" ++ registry ++ "'"
  | unknownRegistry name => "unknown registry: " ++ name
  | unknownType name => "unknown entity type: " ++ name
  | missingIdentifier typeName => typeName ++ " has no identifier"
  | notAMapping found => "expected a mapping, found " ++ found.name
  | notAList found => "expected a list, found " ++ found.name
  | multiple errors => "; ".intercalate (messages errors)
  | atPath path cause => "at " ++ path.text ++ ": " ++ message cause
  | malformedText => "serialization error"
  | endlessDefaults typeName => "defaults nest without end in " ++ typeName

def messages : List EntityError → List String
  | [] => []
  | error :: errors => message error :: messages errors

end

/-- The error as seen from outside a segment. -/
def within (segment : String) : EntityError → EntityError
  | atPath path cause => atPath (segment :: path) cause
  | cause => atPath [segment] cause

/-- The error without its path. -/
def root : EntityError → EntityError
  | atPath _ cause => root cause
  | error => error

/-- The text of the path, for an error below the outermost entity. -/
def path? : EntityError → Option String
  | atPath path _ => some path.text
  | _ => none

/-- The errors found in one entity as one error: a single one stands for itself. -/
def combine : List EntityError → Option EntityError
  | [] => none
  | [error] => some error
  | errors => some (multiple errors)

end EntityError

end Dossier
