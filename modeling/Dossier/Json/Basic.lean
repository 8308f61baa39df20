import Dossier.Binary64.Basic
import Dossier.Table

/-!
# JSON documents

A document is a tree of JSON values. Objects keep the order of their keys.
Numbers are of two sorts: integers, from -2^63 to below 2^64, and finite
double-precision numbers. Two documents are the same if they differ at most in
the order of keys and in the sign of zeros; an integer is never the same as a
float.
-/

namespace Dossier

inductive Json.Number where
  | integer (value : Int) (lower : -9223372036854775808 ≤ value)
    (upper : value < 18446744073709551616)
  | float (value : Binary64.Finite)
  deriving DecidableEq, Repr

inductive Json where
  | null
  | bool (value : Bool)
  | number (value : Json.Number)
  | string (value : String)
  | array (items : List Json)
  | object (entries : List (String × Json))
  deriving Repr, Inhabited

namespace Json

/-- The sorts of JSON value, as error messages name them. -/
inductive Kind where
  | null | boolean | number | string | array | object
  deriving DecidableEq, Repr

def Kind.name : Kind → String
  | .null => "null"
  | .boolean => "boolean"
  | .number => "number"
  | .string => "string"
  | .array => "array"
  | .object => "object"

def kind : Json → Kind
  | null => .null
  | bool _ => .boolean
  | number _ => .number
  | string _ => .string
  | array _ => .array
  | object _ => .object

def isNull : Json → Bool
  | null => true
  | _ => false

/-- The value under a key of an object. -/
def field? (json : Json) (key : String) : Option Json :=
  match json with
  | object entries => Table.get? entries key
  | _ => none

/-- The number of a 64-bit integer. -/
def ofInt64 (i : Int64) : Json :=
  .number (.integer i.toInt i.le_toInt (Int.lt_trans i.toInt_lt (by decide)))

/-- The number of an unsigned 64-bit integer. -/
def ofUInt64 (n : UInt64) : Json :=
  .number (.integer n.toNat (by omega) (by have := n.toNat_lt; omega))

/-! ## Sameness -/

def Number.same : Number → Number → Bool
  | .integer i .., .integer j .. => i = j
  | .float x, .float y => x.same y
  | _, _ => false

mutual

/-- Equality up to the order of keys and the sign of zeros. -/
def same : Json → Json → Bool
  | null, null => true
  | bool a, bool b => a == b
  | number m, number n => m.same n
  | string s, string t => s == t
  | array xs, array ys => sameItems xs ys
  | object xs, object ys => xs.length == ys.length && sameEntries xs ys
  | _, _ => false

def sameItems : List Json → List Json → Bool
  | [], [] => true
  | x :: xs, y :: ys => same x y && sameItems xs ys
  | _, _ => false

/-- Whether the second table holds the same value under each key of the first. -/
def sameEntries : List (String × Json) → Table Json → Bool
  | [], _ => true
  | (key, x) :: xs, ys =>
    (match ys.get? key with
      | some y => same x y
      | none => false) && sameEntries xs ys

end

end Json

end Dossier
