/-
  Transclude/Toml/Printer.lean
  ============================
  **Strings of a settings document, as they are written.**

  A string has four forms.  The basic one stands between double quotes and may
  escape, the literal one stands between single quotes and shows every character as
  it is, and each has a long form between three quotes that may run over several
  lines.  The first of these that shows the text without an escape is taken: basic,
  literal, long basic, long literal.  If there is none, the text is escaped, in the
  long form when it has several lines.

  In a basic string a tab is written as an escape all the same, and of double quotes
  in a row the long form leaves two at a time bare.
-/
import Transclude.Text.Hex

namespace Transclude.Toml

/-! ### Forms -/

inductive Form where
  | basic
  | literal
  | longBasic
  | longLiteral
deriving DecidableEq, Repr

namespace Form

def isLong : Form → Bool
  | .basic | .literal => false
  | .longBasic | .longLiteral => true

def isLiteral : Form → Bool
  | .basic | .longBasic => false
  | .literal | .longLiteral => true

/-- What stands on both sides of the text. -/
def delimiter : Form → List Char
  | .basic => ['"']
  | .literal => ['\'']
  | .longBasic => ['"', '"', '"']
  | .longLiteral => ['\'', '\'', '\'']

end Form

/-- A control character that no form shows as it is: neither a tab nor a newline. -/
def isUnshowable (c : Char) : Bool :=
  (c.toNat < 0x20 && c != '\t' && c != '\n') || c == '\x7f'

/-- Whether a character stands three times in a row somewhere. -/
def hasTriple (c : Char) : List Char → Bool
  | [] => false
  | first :: rest => [c, c, c].isPrefixOf (first :: rest) || hasTriple c rest

/-- Whether a form shows a text without an escape, a tab apart. -/
def Form.shows (form : Form) (text : List Char) : Bool :=
  !text.any isUnshowable &&
  match form with
  | .basic => !text.contains '\\' && !text.contains '"' && !text.contains '\n'
  | .literal => !text.contains '\'' && !text.contains '\n'
  | .longBasic => !text.contains '\\' && !hasTriple '"' text
  | .longLiteral => !hasTriple '\'' text

/-- The form in which a text is written. -/
def Form.of (text : List Char) : Form :=
  match [basic, literal, longBasic, longLiteral].find? (shows · text) with
  | some form => form
  | none => if text.contains '\n' then .longBasic else .basic

/-! ### Escapes -/

/-- A character of a basic string, quotes and newlines apart. -/
def escape (c : Char) : List Char :=
  if c = '\\' then ['\\', '\\']
  else if c = '\x08' then ['\\', 'b']
  else if c = '\t' then ['\\', 't']
  else if c = '\n' then ['\\', 'n']
  else if c = '\x0c' then ['\\', 'f']
  else if c = '\r' then ['\\', 'r']
  else if isUnshowable c then
    ['\\', 'u', '0', '0', (Hex.digit (c.toNat / 16)).toUpper, (Hex.digit (c.toNat % 16)).toUpper]
  else [c]

/-- The text of a basic string behind `row` bare quotes, of which `bare` may stand in
    a row. -/
def escapeAll (long : Bool) (bare row : Nat) : List Char → List Char
  | [] => []
  | c :: rest =>
    if c = '"' then
      if row < bare then c :: escapeAll long bare (row + 1) rest
      else '\\' :: c :: escapeAll long bare 0 rest
    else if c = '\n' && long then c :: escapeAll long bare 0 rest
    else escape c ++ escapeAll long bare 0 rest

/-! ### Strings -/

/-- A text in a given form.  A long string begins on a line of its own if it has
    several. -/
def Form.write (form : Form) (text : List Char) : List Char :=
  let opening := if form.isLong && text.contains '\n' then ['\n'] else []
  let body :=
    if form.isLiteral then text
    else escapeAll form.isLong (if form.isLong then 2 else 0) 0 text
  form.delimiter ++ opening ++ body ++ form.delimiter

/-- The string of a document that stands for a text. -/
def printString (text : String) : String :=
  String.ofList ((Form.of text.toList).write text.toList)

end Transclude.Toml
