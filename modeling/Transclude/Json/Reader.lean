/-
  Transclude/Json/Reader.lean
  ===========================
  **Reading JSON documents.**

  A document is one value with nothing but space around it, nested to any depth.
  The readers of values, items and members call each other on ever shorter texts;
  they take a number of steps as an argument, and `decode` gives them two for each
  character, which is never used up.
-/
import Transclude.Json.Scalar
import Transclude.Json.Value

namespace Transclude.Json

mutual

/-- Reads a value, with the space before it. -/
def readValue : Nat → List Char → Except Stop (Value × List Char)
  | 0, chars => .error ⟨.expectedValue, chars, 1⟩
  | steps + 1, chars =>
    match skipSpace chars with
    | [] => .error ⟨.endInValue, [], 0⟩
    | 'n' :: rest => readWord .null ['u', 'l', 'l'] rest
    | 't' :: rest => readWord (.bool true) ['r', 'u', 'e'] rest
    | 'f' :: rest => readWord (.bool false) ['a', 'l', 's', 'e'] rest
    | '-' :: rest => do
      let (number, rest) ← readNumber true rest
      return (.number number, rest)
    | '"' :: rest => do
      let (text, rest) ← readString rest
      return (.string (String.ofList text), rest)
    | '[' :: rest =>
      match skipSpace rest with
      | [] => .error ⟨.endInList, [], 0⟩
      | ']' :: rest => .ok (.array [], rest)
      | rest => do
        let (items, rest) ← readItems steps rest
        return (.array items, rest)
    | '\x7b' :: rest =>
      match skipSpace rest with
      | [] => .error ⟨.endInObject, [], 0⟩
      | '\x7d' :: rest => .ok (.object [], rest)
      | rest => do
        let (members, rest) ← readMembers steps rest
        return (.object (Members.ofList members), rest)
    | c :: rest =>
      if c.isDigit then do
        let (number, rest) ← readNumber false (c :: rest)
        return (.number number, rest)
      else .error ⟨.expectedValue, c :: rest, 1⟩

/-- Reads one item or more of a list, up to the closing bracket. -/
def readItems : Nat → List Char → Except Stop (List Value × List Char)
  | 0, chars => .error ⟨.expectedValue, chars, 1⟩
  | steps + 1, chars => do
    let (item, rest) ← readValue steps chars
    match skipSpace rest with
    | [] => .error ⟨.endInList, [], 0⟩
    | ']' :: rest => .ok ([item], rest)
    | ',' :: rest =>
      match skipSpace rest with
      | ']' :: rest => .error ⟨.trailingComma, ']' :: rest, 1⟩
      | rest => do
        let (items, rest) ← readItems steps rest
        return (item :: items, rest)
    | rest => .error ⟨.expectedListSeparator, rest, 1⟩

/-- Reads one member or more of an object, up to the closing brace. -/
def readMembers : Nat → List Char → Except Stop (List (String × Value) × List Char)
  | 0, chars => .error ⟨.expectedValue, chars, 1⟩
  | steps + 1, '"' :: chars => do
    let (key, rest) ← readString chars
    match skipSpace rest with
    | [] => .error ⟨.endInObject, [], 0⟩
    | ':' :: rest => do
      let (value, rest) ← readValue steps rest
      match skipSpace rest with
      | [] => .error ⟨.endInObject, [], 0⟩
      | '\x7d' :: rest => .ok ([(String.ofList key, value)], rest)
      | ',' :: rest =>
        match skipSpace rest with
        | [] => .error ⟨.endInValue, [], 0⟩
        | '\x7d' :: rest => .error ⟨.trailingComma, '\x7d' :: rest, 1⟩
        | rest => do
          let (members, rest) ← readMembers steps rest
          return ((String.ofList key, value) :: members, rest)
      | rest => .error ⟨.expectedObjectSeparator, rest, 1⟩
    | rest => .error ⟨.expectedColon, rest, 1⟩
  | _ + 1, chars => .error ⟨.keyMustBeString, chars, 1⟩

end

/-- Reads a whole document. -/
def readDocument (chars : List Char) : Except Stop Value := do
  let (value, rest) ← readValue (2 * chars.length + 2) chars
  match skipSpace rest with
  | [] => return value
  | rest => throw ⟨.trailingCharacters, rest, 1⟩

/-- The value that a text denotes. -/
def decode (text : String) : Except Fault Value :=
  (readDocument text.toList).mapError (·.within text.toList)

end Transclude.Json
