import Dossier.Schema.Validator

/-!
# Fields

A field is one named property of an entity type: the kind of its values,
whether it holds one or a list of them, whether it must be there or where its
value comes from if it is not supplied, a validator, and a hook that runs once
the entity is complete. A field with a default is never required, since
`Presence` says which of the two it is.
-/

namespace Dossier

/-- The kinds of value that hold no entities. -/
inductive LeafKind where
  | string
  | boolean
  | integer
  | float
  | timestamp
  /-- The identifier of an entity of one of the types, or of any if none is listed. -/
  | identifier (allowed : List String)
  /-- A mapping that is kept as it is. -/
  | dictionary
  deriving DecidableEq, Repr

inductive FieldKind where
  | leaf (kind : LeafKind)
  /-- An entity of one type. -/
  | entity (type : TypeKey)
  /-- An entity whose type a tag picks from a registry. -/
  | polymorphic (registry : String)
  /-- An entity of one type, held inline or by reference. -/
  | related (type : TypeKey)
  deriving DecidableEq, Repr

/-- What a computed default is told: the names of the owning type, and the values of the fields
before it. A deferred default is told more, see `DefaultScope`. -/
structure DefaultInput where
  name : String
  typeName : String
  assigned : Mapping

/-- Where the value of a field comes from that nothing was supplied for. -/
inductive Default where
  | fixed (value : Value)
  /-- A fresh identifier of the owning type. -/
  | generateId
  /-- The current time. -/
  | now
  /-- The value of another field, if it has one by then. -/
  | sameAs (field : String)
  /-- What is computed of the fields before: a deferred default that has no need of the context, and
  so none of a name there. -/
  | computed (compute : DefaultInput → Option Value)
  /-- What a default gives that the context knows by name. It has the context and all that is in
  the store to ask, and may change the store (`Context.defaults`). -/
  | deferred (name : String)

inductive Presence where
  | required
  | optional
  | defaulted (default : Default)

/-- What runs when a field of a complete entity holds a value. -/
inductive Hook where
  /-- Puts the entity into the identity cache. -/
  | cacheEntity
  /-- A hook that the context knows by name. -/
  | named (name : String)
  deriving DecidableEq, Repr

structure Field where
  name : String
  kind : FieldKind
  presence : Presence := .optional
  /-- Whether the field holds a list of values of its kind. -/
  isMultiple : Bool := false
  validator : Option Validator := none
  hook : Option Hook := none

namespace Field

/-! ## Making fields

A field starts out optional and single. -/

def leaf (name : String) (kind : LeafKind) : Field := { name, kind := .leaf kind }

def text (name : String) : Field := leaf name .string

def entity (name : String) (type : TypeKey) : Field := { name, kind := .entity type }

def polymorphic (name registry : String) : Field := { name, kind := .polymorphic registry }

def related (name : String) (type : TypeKey) : Field := { name, kind := .related type }

/-- The field as one that must be there. -/
def require (f : Field) : Field := { f with presence := .required }

/-- The field as one that holds a list. -/
def list (f : Field) : Field := { f with isMultiple := true }

/-- The field with a default. It is then no longer required. -/
def withDefault (f : Field) (default : Default) : Field :=
  { f with presence := .defaulted default }

/-- The field with a constant for its default. -/
def withFixed (f : Field) (value : Value) : Field := f.withDefault (.fixed value)

def withValidator (f : Field) (validator : Validator) : Field :=
  { f with validator := some validator }

def withHook (f : Field) (hook : Hook) : Field := { f with hook := some hook }

/-- A text that is always the same. -/
def constant (name value : String) : Field :=
  ((text name).withFixed (.string value)).withValidator (.equals value)

/-- The identifier of an entity of a type: made up if there is none, and the one under which
the entity is cached. -/
def identifier (name typeName : String) : Field :=
  (((text name).withDefault .generateId).withValidator (.identifierOf typeName)).withHook
    .cacheEntity

def isRequired (f : Field) : Bool :=
  match f.presence with
  | .required => true
  | _ => false

def default? (f : Field) : Option Default :=
  match f.presence with
  | .defaulted default => some default
  | _ => none

/-- The value as the field holds it, if the validator lets it pass. -/
def validate (f : Field) (value : Value) : Except Reason Unit :=
  match f.validator with
  | some validator => validator.check value
  | none => .ok ()

end Field

end Dossier
