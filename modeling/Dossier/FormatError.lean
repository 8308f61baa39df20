/-!
# Malformed leaf values

The ways a text can fail to be an identifier or a timestamp. Each error keeps
the text that was refused.
-/

namespace Dossier

inductive FormatError where
  /-- The text does not have the shape of an identifier. -/
  | identifier (text : String)
  /-- The part after the separator is a UUID in no form at all. -/
  | uuid (text : String)
  /-- The text, or the list of date and time parts, names no point in time. -/
  | timestamp (text : String)
  deriving DecidableEq, Repr

def FormatError.message : FormatError → String
  | .identifier text => "invalid identifier: " ++ text
  | .uuid text => "invalid UUID: " ++ text
  | .timestamp text => "invalid timestamp: " ++ text

end Dossier
