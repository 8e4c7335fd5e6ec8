/-
  Transclude/Json/Fault.lean
  ==========================
  **Why and where a text is not a JSON document.**

  A reader stops with a complaint and with what it had not yet read.  Where in the
  text that is follows from the length of the rest, so a reader never counts.
  Lines are counted from one; a column is the number of bytes read since the last
  newline.
-/

namespace Transclude.Json

inductive Complaint where
  | endInValue
  | endInList
  | endInObject
  | endInString
  | expectedValue
  | expectedIdent
  | expectedListSeparator
  | expectedObjectSeparator
  | expectedColon
  | keyMustBeString
  | trailingComma
  | trailingCharacters
  | invalidNumber
  | invalidEscape
  | controlCharacter
  | loneSurrogate
  | endOfHexEscape
deriving DecidableEq, Repr

def Complaint.message : Complaint → String
  | .endInValue => "EOF while parsing a value"
  | .endInList => "EOF while parsing a list"
  | .endInObject => "EOF while parsing an object"
  | .endInString => "EOF while parsing a string"
  | .expectedValue => "expected value"
  | .expectedIdent => "expected ident"
  | .expectedListSeparator => "expected `,` or `]`"
  | .expectedObjectSeparator => "expected `,` or `\x7d`"
  | .expectedColon => "expected `:`"
  | .keyMustBeString => "key must be a string"
  | .trailingComma => "trailing comma"
  | .trailingCharacters => "trailing characters"
  | .invalidNumber => "invalid number"
  | .invalidEscape => "invalid escape"
  | .controlCharacter => "control character (\\u0000-\\u001F) found while parsing a string"
  | .loneSurrogate => "lone leading surrogate in hex escape"
  | .endOfHexEscape => "unexpected end of hex escape"

/-- Where a reader stopped: before `rest`, having looked at `ahead` bytes of it. -/
structure Stop where
  complaint : Complaint
  rest : List Char
  ahead : Nat
deriving DecidableEq, Repr

/-- A complaint with its place in the text. -/
structure Fault where
  complaint : Complaint
  line : Nat
  column : Nat
deriving DecidableEq, Repr

def Fault.message (f : Fault) : String :=
  f.complaint.message ++ " at line " ++ toString f.line ++ " column " ++ toString f.column

/-- The number of bytes that characters take. -/
def byteLength (chars : List Char) : Nat := chars.foldr (fun c n => c.utf8Size + n) 0

/-- The line and column after a number of bytes, from a given line and column on. -/
def lineAndColumn (line column : Nat) : List Char → Nat → Nat × Nat
  | [], _ => (line, column)
  | c :: rest, bytes =>
    if c.utf8Size ≤ bytes then
      if c = '\n' then lineAndColumn (line + 1) 0 rest (bytes - c.utf8Size)
      else lineAndColumn line (column + c.utf8Size) rest (bytes - c.utf8Size)
    else (line, column + bytes)

/-- The place in `text` at which a reader stopped. -/
def Stop.within (s : Stop) (text : List Char) : Fault :=
  let read := byteLength text - byteLength s.rest + s.ahead
  let place := lineAndColumn 1 0 text read
  ⟨s.complaint, place.1, place.2⟩

end Transclude.Json
