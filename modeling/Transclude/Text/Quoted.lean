/-
  Transclude/Text/Quoted.lean
  ===========================
  **Quoted strings.**

  A text is written between double quotes.  The quote, the backslash and the
  characters below U+0020 are escaped, by their short form where they have one
  and as `\u00xx` otherwise; every other character stands for itself.  The form is
  at once a string of the JSON grammar and a string literal of a script.
-/
import Transclude.Text.Hex

namespace Transclude.Quoted

/-- How one character is written between the quotes. -/
def escape (c : Char) : List Char :=
  if c = '"' then ['\\', '"']
  else if c = '\\' then ['\\', '\\']
  else if c = '\x08' then ['\\', 'b']
  else if c = '\x0c' then ['\\', 'f']
  else if c = '\n' then ['\\', 'n']
  else if c = '\r' then ['\\', 'r']
  else if c = '\t' then ['\\', 't']
  else if c.toNat < 0x20 then
    ['\\', 'u', '0', '0', Hex.digit (c.toNat / 16), Hex.digit (c.toNat % 16)]
  else [c]

/-- A text between quotes, as characters. -/
def chars (text : List Char) : List Char := '"' :: text.flatMap escape ++ ['"']

end Transclude.Quoted

namespace Transclude

/-- A text between quotes. -/
def quote (text : String) : String := String.ofList (Quoted.chars text.toList)

end Transclude
