import Dossier.Error
import Dossier.Json.Reader
import Dossier.Json.Writer

/-!
# Codecs

A codec turns canonical mappings into text and text into documents. The JSON
codec writes one line or an indented text, and reads what its reader reads.
-/

namespace Dossier

structure Codec where
  /-- The text of a mapping, its keys in order. -/
  encode : (mapping : Table Json) → (pretty : Bool) → Except EntityError String
  decode : (text : String) → Except EntityError Json

namespace Codec

/-- The indent of pretty JSON where none is asked for. -/
def defaultIndent : Nat := 4

/-- JSON text, pretty with so many blanks for each level. -/
def json (indent : Nat) : Codec where
  encode mapping pretty :=
    .ok (Json.render (if pretty then .pretty indent else .compact) (.object mapping))
  decode text :=
    match Json.parse? text with
    | some json => .ok json
    | none => .error .malformedText

end Codec

end Dossier
