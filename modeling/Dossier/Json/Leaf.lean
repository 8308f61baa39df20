import Dossier.Identifier.Basic
import Dossier.Json.Basic
import Dossier.Timestamp.Text

/-!
# Identifiers and timestamps in documents

In a document identifiers and timestamps are strings, and only strings.
-/

namespace Dossier

def Identifier.ofJson? : Json → Option Identifier
  | .string s => Identifier.parse? s
  | _ => none

def Identifier.toJson (id : Identifier) : Json := .string id.text

def Timestamp.ofJson? : Json → Option Timestamp
  | .string s => Timestamp.parse? s
  | _ => none

def Timestamp.toJson (t : Timestamp) : Json := .string t.text

end Dossier
