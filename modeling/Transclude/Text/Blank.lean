/-
  Transclude/Text/Blank.lean
  ==========================
  **White space.**

  The characters of the Unicode property `White_Space`: the ASCII controls from
  tab to carriage return, the space, U+0085, and the spaces and separators
  outside ASCII.
-/

namespace Transclude

/-- Whether a character is white space. -/
def isBlank (c : Char) : Bool :=
  let n := c.toNat
  (9 ≤ n && n ≤ 13) || n == 0x20 || n == 0x85 || n == 0xA0 || n == 0x1680
    || (0x2000 ≤ n && n ≤ 0x200A) || n == 0x2028 || n == 0x2029 || n == 0x202F
    || n == 0x205F || n == 0x3000

/-- The white space that a line starts with, possibly the whole line. -/
def indentation (line : String) : String := String.ofList (line.toList.takeWhile isBlank)

end Transclude
