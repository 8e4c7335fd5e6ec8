/-
  Transclude/Text/Escaped.lean
  ============================
  **Names on one visible line.**

  A name that is shown within a line is written between double quotes, with the
  quote, the backslash and the common controls escaped by a sign of their own and
  every other hidden character by its code point in hexadecimal.
-/
import Transclude.Text.Hidden

namespace Transclude.Escaped

/-- How one character of a name is shown. -/
def showChar (c : Char) : List Char :=
  if c = '\x00' then ['\\', '0']
  else if c = '\t' then ['\\', 't']
  else if c = '\r' then ['\\', 'r']
  else if c = '\n' then ['\\', 'n']
  else if c = '"' then ['\\', '"']
  else if c = '\\' then ['\\', '\\']
  else if isHidden c then ['\\', 'u', '\x7b'] ++ Nat.toDigits 16 c.toNat ++ ['\x7d']
  else [c]

/-- A name between quotes. -/
def name (text : String) : String :=
  String.ofList ('"' :: text.toList.flatMap showChar ++ ['"'])

end Transclude.Escaped
