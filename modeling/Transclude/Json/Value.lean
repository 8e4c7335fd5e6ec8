/-
  Transclude/Json/Value.lean
  ==========================
  **Decoded values.**

  An object is a list of members in the order of their first appearance.
  `insert` keeps a key's first place and gives it the latest value, so an object
  that is built by `insert` has no key twice.
-/
import Transclude.Json.Number

namespace Transclude.Json

inductive Value where
  | null
  | bool (value : Bool)
  | number (value : Number)
  | string (value : String)
  | array (items : List Value)
  | object (members : List (String × Value))

abbrev Members := List (String × Value)

/-- Sets a key: in place if it is there, else at the end. -/
def Members.insert : Members → String → Value → Members
  | [], key, value => [(key, value)]
  | (k, v) :: rest, key, value =>
    if k = key then (k, value) :: rest else (k, v) :: Members.insert rest key value

/-- The members in the order read, each key at its first place with its last value. -/
def Members.ofList (entries : List (String × Value)) : Members :=
  entries.foldl (fun members entry => members.insert entry.1 entry.2) []

/-- What a value is, its content apart. -/
inductive Shape where
  | null
  | boolean
  | number
  | string
  | array
  | object
deriving DecidableEq, Repr

def Shape.name : Shape → String
  | .null => "null"
  | .boolean => "boolean"
  | .number => "number"
  | .string => "string"
  | .array => "array"
  | .object => "object"

def Shape.all : List Shape := [.null, .boolean, .number, .string, .array, .object]

def Shape.ofName? (name : String) : Option Shape := Shape.all.find? (·.name == name)

def Value.shape : Value → Shape
  | .null => .null
  | .bool _ => .boolean
  | .number _ => .number
  | .string _ => .string
  | .array _ => .array
  | .object _ => .object

end Transclude.Json
