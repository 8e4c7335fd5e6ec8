/-
  Transclude/Literal.lean
  =======================
  **Values as literals.**

  Each decoded value has one literal that denotes it: keywords, strings and arrays
  stand for themselves, an object has a property for each member under a quoted
  name, and a negative number is a minus over the digits without their sign.  A
  number that has no finite double near it has no literal; the first one in the
  document is the one that is reported.
-/
import Transclude.Failure
import Transclude.Json.Value
import Transclude.Tree.Basic

namespace Transclude

namespace Literal

def leaf (kind : Kind) : Node := Node.synthesize kind []

def string (text : String) : Node := leaf (.stringLiteral text)

def property (name : String) (value : Node) : Node :=
  Node.synthesize .propertyAssignment [string name, value]

/-- The digits of a number, under a minus if it is negative. -/
def number (n : Json.Number) : Node :=
  let digits := leaf (.numericLiteral n.magnitudeText)
  if n.negative then Node.synthesize (.prefixUnaryExpression .minus) [digits] else digits

mutual

/-- The literal that denotes a value. -/
def ofValue : Json.Value → Except Cause Node
  | .null => .ok (leaf .nullKeyword)
  | .bool true => .ok (leaf .trueKeyword)
  | .bool false => .ok (leaf .falseKeyword)
  | .number n => if n.inRange then .ok (number n) else .error (.unsupportedValue n.text)
  | .string text => .ok (string text)
  | .array items => do
    let elements ← ofItems items
    return Node.synthesize .arrayLiteralExpression elements
  | .object members => do
    let properties ← ofMembers members
    return Node.synthesize .objectLiteralExpression properties

def ofItems : List Json.Value → Except Cause (List Node)
  | [] => .ok []
  | item :: items => do
    let element ← ofValue item
    let elements ← ofItems items
    return element :: elements

def ofMembers : List (String × Json.Value) → Except Cause (List Node)
  | [] => .ok []
  | (key, value) :: members => do
    let initializer ← ofValue value
    let properties ← ofMembers members
    return property key initializer :: properties

end

end Literal

end Transclude
