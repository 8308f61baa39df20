import Dossier.Construction.Build
import Dossier.Construction.Leaf
import Dossier.Entity.Related

/-!
# Coercion

How a supplied value becomes the value of a field. Values of a field that holds
a list are coerced one by one, and a single value counts as a list of one. What
is an entity already is taken as it is if its type fits; a mapping is built. How
mappings are built is a parameter here, a `Builder`, which `Construction.Entity`
supplies.
-/

namespace Dossier

/-- How a mapping becomes an entity of a type. -/
abbrev Builder := TypeKey → Mapping → Build Entity

/-- The form that a record is presented in, before it is looked at. -/
inductive Presentation where
  | inline
  | byReference
  deriving DecidableEq, Repr

namespace RelatedObject

/-- A record is presented as a reference if it has an identifier to refer to. -/
def presentationOf (record : Mapping) : Presentation :=
  if record.contains idrefKey then .byReference else .inline

/-- The relationship of a record. -/
def relationshipOf (record : Mapping) : Except EntityError (Option String) :=
  match record.get? relationshipKey with
  | none => .ok none
  | some (.string s) => .ok (some s)
  | some _ => .error (.invalidProperty "RelatedObject" relationshipKey .notAString)

/-- The identifier that a record refers to, which must be well-formed. -/
def idrefOf (record : Mapping) : Except EntityError (Option String) :=
  match record.get? idrefKey with
  | none => .ok none
  | some raw =>
    match raw.string?.filter fun s => (Identifier.parse? s).isSome with
    | some s => .ok (some s)
    | none => .error (.invalidProperty "RelatedObject" idrefKey .notAnIdentifier)

/-- The properties of the entity that a record embeds. -/
def payloadOf (record : Mapping) : Mapping := (record.erase relationshipKey).erase idrefKey

/-- Reads a record. With an identifier and no other property it is a reference; with
properties and no identifier it is inline, however it was presented; with both it is what
it was presented as, and the other part is dropped. -/
def ofRecord (build : Builder) (type : TypeKey) (record : Mapping) (shown : Presentation) :
    Build RelatedObject := do
  let relationship ← Build.ofExcept (relationshipOf record)
  let idref? ← Build.ofExcept (idrefOf record)
  let payload := payloadOf record
  match idref? with
  | some idref =>
    if payload = [] ∨ shown = .byReference then return byReference idref relationship
    else return inline (← build type payload) relationship
  | none =>
    if payload = [] then Build.fail (.missingProperties "RelatedObject" [idrefKey])
    else return inline (← build type payload) relationship

end RelatedObject

/-! ## Fields -/

namespace Field

/-- The type that a supplied value will be built as. Fixed for entities and related objects,
and picked by the tag for polymorphic ones; leaves have none. -/
def builtType? (ctx : Context) (f : Field) (raw : Value) : Except EntityError (Option TypeKey) :=
  match f.kind with
  | .leaf _ => .ok none
  | .entity type => .ok (some type)
  | .related type => .ok (some type)
  | .polymorphic name => do
    let registry ← ctx.registry name
    match raw with
    | .mapping entries => some <$> registry.pick entries
    | .entity e => return some e.typeKey
    | _ => return none

/-- Refuses the value of a field. -/
def refuse {α : Type} (owner : EntityType) (f : Field) (reason : Reason) : Build α :=
  Build.fail (.invalidProperty owner.name f.name reason)

def coerceEntity (ctx : Context) (build : Builder) (owner : EntityType) (f : Field)
    (segment : String) (type : TypeKey) : Value → Build Value
  | .mapping entries => .entity <$> (build type entries).within segment
  | .entity e =>
    if e.isOf ctx.schema (ctx.typeOf type) then return .entity e
    else f.refuse owner (.notOfType (ctx.typeOf type).name)
  | _ => f.refuse owner .notAMapping

def coercePolymorphic (ctx : Context) (build : Builder) (owner : EntityType) (f : Field)
    (segment : String) (name : String) (raw : Value) : Build Value := do
  let registry ← Build.ofExcept (ctx.registry name)
  match raw with
  | .mapping entries =>
    Build.within segment do
      let type ← Build.ofExcept (registry.pick entries)
      return .entity (← build type entries)
  | .entity e =>
    if registry.knowsType ctx.schema (e.type ctx.schema) then return .entity e
    else f.refuse owner (.notInRegistry name)
  | _ => f.refuse owner .notAMapping

def coerceRelated (ctx : Context) (build : Builder) (owner : EntityType) (f : Field)
    (segment : String) (type : TypeKey) : Value → Build Value
  | .mapping entries =>
    .related <$> (RelatedObject.ofRecord build type entries
      (RelatedObject.presentationOf entries)).within segment
  | .related r =>
    if !r.embeds ctx.schema (ctx.typeOf type) then
      f.refuse owner (.notOfType (ctx.typeOf type).name)
    else if r.idref?.any fun idref => (Identifier.parse? idref).isNone then
      Build.within segment <|
        Build.fail (.invalidProperty "RelatedObject" idrefKey .notAnIdentifier)
    else return .related r
  | .entity e =>
    if e.isOf ctx.schema (ctx.typeOf type) then return .related (.inline e none)
    else f.refuse owner (.notOfType (ctx.typeOf type).name)
  | _ => f.refuse owner .notAMapping

/-- Coerces one value to the kind of a field, not yet validated. -/
def coerceKind (ctx : Context) (build : Builder) (owner : EntityType) (f : Field)
    (segment : String) (raw : Value) : Build Value :=
  match f.kind with
  | .leaf kind =>
    match kind.coerce raw with
    | .ok value => return value
    | .error reason => f.refuse owner reason
  | .entity type => f.coerceEntity ctx build owner segment type raw
  | .polymorphic name => f.coercePolymorphic ctx build owner segment name raw
  | .related type => f.coerceRelated ctx build owner segment type raw

/-- Coerces and validates one value. -/
def coerceSingle (ctx : Context) (build : Builder) (owner : EntityType) (f : Field)
    (segment : String) (raw : Value) : Build Value := do
  let value ← f.coerceKind ctx build owner segment raw
  match f.validate value with
  | .ok () => return value
  | .error reason => f.refuse owner reason

/-- The segment of an item of a list. -/
def itemSegment (f : Field) (index : Nat) : String := f.name ++ "[" ++ toString index ++ "]"

/-- Coerces the items of a list, the first of which has the index given. -/
def coerceItems (ctx : Context) (build : Builder) (owner : EntityType) (f : Field) :
    (index : Nat) → List Value → Build (List Value)
  | _, [] => return []
  | index, item :: items => do
    let value ← f.coerceSingle ctx build owner (f.itemSegment index) item
    return value :: (← coerceItems ctx build owner f (index + 1) items)

/-- The items that a value supplies to a field of lists. -/
def itemsOf : Value → List Value
  | .list items => items
  | single => [single]

/-- Coerces and validates a supplied value. -/
def coerce (ctx : Context) (build : Builder) (owner : EntityType) (f : Field) (raw : Value) :
    Build Value :=
  if f.isMultiple then
    if (itemsOf raw).isEmpty && f.isRequired then f.refuse owner .isEmpty
    else .list <$> f.coerceItems ctx build owner 0 (itemsOf raw)
  else f.coerceSingle ctx build owner f.name raw

end Field

end Dossier
