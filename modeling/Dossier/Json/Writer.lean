import Dossier.Binary64.Decimal
import Dossier.Json.Basic
import Dossier.Text.Digits

/-!
# Writing JSON

A document is written with its keys in order. Layouts differ only in what they
put between tokens: nothing, or line breaks, indents and a blank after each
colon. Strings escape quotes, backslashes and control characters, and nothing
else.
-/

namespace Dossier.Json

/-- What is written between tokens. -/
structure Layout where
  /-- Before an item, and before the bracket that closes a container, at a depth. -/
  lineBreak : (depth : Nat) → List Char
  afterColon : List Char

namespace Layout

/-- No blanks at all. -/
def compact : Layout := ⟨fun _ => [], []⟩

/-- One item a line, each level indented by so many blanks. -/
def pretty (indent : Nat) : Layout :=
  ⟨fun depth => '\n' :: List.replicate (indent * depth) ' ', [' ']⟩

end Layout

/-- How a character is written inside a string. -/
def escape (c : Char) : List Char :=
  if c = '"' then ['\\', '"']
  else if c = '\\' then ['\\', '\\']
  else if c = '\x08' then ['\\', 'b']
  else if c = '\x0c' then ['\\', 'f']
  else if c = '\n' then ['\\', 'n']
  else if c = '\r' then ['\\', 'r']
  else if c = '\t' then ['\\', 't']
  else if c.toNat < 32 then '\\' :: 'u' :: Text.fixedWidth 16 4 c.toNat
  else [c]

def quoted (s : String) : List Char :=
  '"' :: (s.toList.flatMap escape ++ ['"'])

def Number.chars : Number → List Char
  | .integer value .. => (toString value).toList
  | .float value => value.chars

mutual

/-- The text of a document that begins at a depth. -/
def chars (layout : Layout) (depth : Nat) : Json → List Char
  | null => ['n', 'u', 'l', 'l']
  | bool true => ['t', 'r', 'u', 'e']
  | bool false => ['f', 'a', 'l', 's', 'e']
  | number n => n.chars
  | string s => quoted s
  | array [] => ['[', ']']
  | array (item :: items) =>
    '[' :: (layout.lineBreak (depth + 1) ++ (chars layout (depth + 1) item ++
      (itemChars layout (depth + 1) items ++ (layout.lineBreak depth ++ [']']))))
  | object [] => ['{', '}']
  | object ((key, value) :: entries) =>
    '{' :: (layout.lineBreak (depth + 1) ++ (quoted key ++ ':' :: (layout.afterColon ++
      (chars layout (depth + 1) value ++
        (entryChars layout (depth + 1) entries ++ (layout.lineBreak depth ++ ['}']))))))

/-- The items after the first, each after a comma. -/
def itemChars (layout : Layout) (depth : Nat) : List Json → List Char
  | [] => []
  | item :: items =>
    ',' :: (layout.lineBreak depth ++ (chars layout depth item ++ itemChars layout depth items))

/-- The entries after the first, each after a comma. -/
def entryChars (layout : Layout) (depth : Nat) : List (String × Json) → List Char
  | [] => []
  | (key, value) :: entries =>
    ',' :: (layout.lineBreak depth ++ (quoted key ++ ':' :: (layout.afterColon ++
      (chars layout depth value ++ entryChars layout depth entries))))

end

/-- The text of a document. -/
def render (layout : Layout) (json : Json) : String :=
  String.ofList (chars layout 0 json)

/-- The text without blanks. -/
def compact (json : Json) : String := json.render .compact

end Dossier.Json
