import Dossier.Codec

/-!
# Configuration

The settings of a context, and the document form they are kept in: an object in
which absent settings have their defaults, or a list of the first few settings
in order.
-/

namespace Dossier

structure Config where
  /-- Whether entities with identifiers are put into the identity cache. -/
  cacheEntities : Bool := true
  /-- Whether every type keeps properties that it does not declare. -/
  allowCustomProperties : Bool := false
  /-- The indent of pretty JSON. -/
  prettyIndent : UInt64 := UInt64.ofNat Codec.defaultIndent
  deriving DecidableEq, Repr

namespace Config

/-! The settings one by one, from their JSON values. -/

def withCacheEntities? (c : Config) : Json → Option Config
  | .bool b => some { c with cacheEntities := b }
  | _ => none

def withAllowCustomProperties? (c : Config) : Json → Option Config
  | .bool b => some { c with allowCustomProperties := b }
  | _ => none

def withPrettyIndent? (c : Config) : Json → Option Config
  | .number (.integer value ..) =>
    if 0 ≤ value then some { c with prettyIndent := UInt64.ofNat value.toNat } else none
  | _ => none

/-- The names of the settings, in order, with how each is read. -/
def settings : List (String × (Config → Json → Option Config)) :=
  [("cache_entities", withCacheEntities?),
    ("allow_custom_properties", withAllowCustomProperties?),
    ("pretty_indent", withPrettyIndent?)]

/-- The configuration of a document. Unknown keys are passed over. -/
def ofJson? (json : Json) : Option Config :=
  match json with
  | .object _ =>
    settings.foldlM (fun c (key, set) =>
      match json.field? key with
      | some value => set c value
      | none => some c) {}
  | .array items =>
    if items.length ≤ settings.length then
      (settings.zip items).foldlM (fun c ((_, set), value) => set c value) {}
    else none
  | _ => none

def toJson (c : Config) : Json :=
  .object [("cache_entities", .bool c.cacheEntities),
    ("allow_custom_properties", .bool c.allowCustomProperties),
    ("pretty_indent", .ofUInt64 c.prettyIndent)]

end Config

end Dossier
