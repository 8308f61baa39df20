import Dossier.Construction.Coercion

/-!
# Construction of entities

An entity is put together from a mapping field by field. Every field is tried
and every error is collected; an entity is only there if there was no error at
all. The mappings inside a supplied value are built the same way, which ends
because they are less deep. The value of a default may be a mapping as well,
so the nesting of defaults is bounded by the schema.
-/

namespace Dossier

namespace Default

/-- The value of a default, before coercion. -/
def rawValue (ctx : Context) (owner : EntityType) (assigned : Mapping) :
    Default → Build (Option Value)
  | fixed value => return some value
  | generateId => return some (.string (← Build.drawId ctx.ids owner.typeName).text)
  | now => return some (.timestamp (← Build.readClock ctx.clock))
  | sameAs field => return assigned.get? field
  | computed compute =>
    return compute { name := owner.name, typeName := owner.typeName, assigned }
  | deferred name => Build.ask ctx name { type := owner, assigned }

end Default

/-- How mappings become entities while an entity is built: those that were supplied, and
those that a default gave. -/
structure Builders where
  supplied : Builder
  defaulted : Builder

namespace Field

/-- The value of a field for what was supplied, which may be nothing. -/
def fill (ctx : Context) (builders : Builders) (owner : EntityType) (f : Field)
    (assigned : Mapping) : (raw : Option Value) → Build (Option Value)
  | some raw => some <$> f.coerce ctx builders.supplied owner raw
  | none =>
    match f.default? with
    | some default => do
      match ← default.rawValue ctx owner assigned with
      | some raw => some <$> f.coerce ctx builders.defaulted owner raw
      | none => return none
    | none => return none

end Field

/-- How far the fields of an entity have been tried. -/
structure Progress where
  /-- What was supplied and no field has taken. -/
  rest : Mapping
  values : Mapping := []
  errors : List EntityError := []
  /-- The required fields that nothing was supplied for. -/
  missing : List String := []

namespace EntityType

/-- Tries one field. -/
def tryField (ctx : Context) (builders : Builders) (t : EntityType) (progress : Progress)
    (f : Field) : Build Progress := do
  let raw := progress.rest.get? f.name
  let progress := { progress with rest := progress.rest.erase f.name }
  match ← (f.fill ctx builders t progress.values raw).attempt with
  | .ok (some value) => return { progress with values := progress.values.insert f.name value }
  | .ok none =>
    return if f.isRequired then { progress with missing := progress.missing ++ [f.name] }
      else progress
  | .error error => return { progress with errors := progress.errors ++ [error] }

/-- Takes the tag out of what was supplied, if it is not a field. It must be the tag of the
type. -/
def takeTag (t : EntityType) (supplied : Mapping) : Progress :=
  match t.separateTag? with
  | none => { rest := supplied }
  | some tag =>
    match supplied.get? tag.key with
    | none => { rest := supplied }
    | some raw =>
      let rest := supplied.erase tag.key
      if raw.string? = some tag.value then { rest }
      else { rest, errors := [.invalidProperty t.name tag.key (.notEqual tag.value)] }

/-- All errors of an entity whose fields have been tried, in order. -/
def errorsOf (ctx : Context) (t : EntityType) (progress : Progress) : List EntityError :=
  progress.errors ++
  (if progress.missing = [] then [] else [.missingProperties t.name progress.missing]) ++
  (if ctx.keepsExtras t ∨ progress.rest = [] then []
    else [.unexpectedProperties t.name progress.rest.keys])

/-- The hook calls of a complete entity: one for each field with a hook that is set. -/
def hookCalls (t : EntityType) (e : Entity) : List HookCall :=
  t.fields.filterMap fun f =>
    match f.hook with
    | some hook => if e.isSet f.name then some ⟨hook, e⟩ else none
    | none => none

/-- Puts an entity together from a mapping. -/
def construct (ctx : Context) (builders : Builders) (type : TypeKey) (supplied : Mapping) :
    Build Entity := do
  let t := ctx.typeOf type
  let progress ← t.fields.foldlM (t.tryField ctx builders) (t.takeTag supplied)
  match EntityError.combine (t.errorsOf ctx progress) with
  | some error => Build.fail error
  | none =>
    let e : Entity :=
      { typeKey := type
        values := progress.values
        extras := if ctx.keepsExtras t then progress.rest else [] }
    Build.leave (t.hookCalls e)
    return e

end EntityType

namespace Context

/-- Builds mappings of a bounded depth, given how the values of defaults are built. -/
def buildWithin (ctx : Context) (defaulted : Builder) : (depth : Nat) → Builder
  | 0 => fun type _ => Build.fail (.endlessDefaults (ctx.typeOf type).name)
  | depth + 1 =>
    EntityType.construct ctx { supplied := ctx.buildWithin defaulted depth, defaulted }

/-- Builds a mapping of any depth, with a bound on how deep defaults nest. -/
def buildNesting (ctx : Context) : (nesting : Nat) → Builder
  | 0 => fun type supplied =>
    ctx.buildWithin (fun type _ => Build.fail (.endlessDefaults (ctx.typeOf type).name))
      supplied.depth type supplied
  | nesting + 1 => fun type supplied =>
    ctx.buildWithin (ctx.buildNesting nesting) supplied.depth type supplied

/-- Builds an entity of a type from a mapping. -/
def build (ctx : Context) : Builder := ctx.buildNesting ctx.schema.defaultNesting

end Context

end Dossier
