import Dossier.Json.Basic
import Dossier.Value.Basic

/-!
# Values of documents

A decoded document as a value. Absent and null are the same for an entity, so
nulls are left out of mappings and lists; a null that stands alone is an empty
mapping. Integers beyond 63 bits become floats.
-/

namespace Dossier.Value

def ofNumber : Json.Number → Value
  | .integer value .. =>
    if value < 9223372036854775808 then .integer (Int64.ofInt value) else .number (.ofInt value)
  | .float value => .number (.finite value)

mutual

def ofJson : Json → Value
  | .null => .mapping []
  | .bool b => .bool b
  | .number n => ofNumber n
  | .string s => .string s
  | .array items => .list (itemsOfJson items)
  | .object entries => .mapping (mappingOfJson entries)

/-- The items that are not null. -/
def itemsOfJson : List Json → List Value
  | [] => []
  | item :: items => if item.isNull then itemsOfJson items else ofJson item :: itemsOfJson items

/-- The entries that are not null. -/
def mappingOfJson : List (String × Json) → List (String × Value)
  | [] => []
  | (key, json) :: entries =>
    if json.isNull then mappingOfJson entries else (key, ofJson json) :: mappingOfJson entries

end

end Dossier.Value

namespace Dossier

/-- The mapping of a decoded object. -/
def Mapping.ofJson (entries : Table Json) : Mapping := Value.mappingOfJson entries

end Dossier
