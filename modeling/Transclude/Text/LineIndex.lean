/-
  Transclude/Text/LineIndex.lean
  ==============================
  **Lines and columns by an index of lines.**

  The offsets at which the lines of a text start, as 32-bit words in ascending
  order, let a position be looked up without walking over the text from its start:
  the line is found by halving, and only the characters of that line up to the
  offset are counted.

  Every step that could leave its bounds is checked, and a lookup that would leave
  them has no result: the word behind the last one, a line that the index does not
  have, an offset below zero, and a piece of text whose ends are out of order or in
  the middle of a character.
-/

namespace Transclude

/-- A line and a column within it, both counted from zero; columns count characters. -/
structure Position where
  line : Nat
  column : Nat
deriving DecidableEq, Repr

def Position.origin : Position := ⟨0, 0⟩

namespace LineIndex

/-! ### Line starts -/

/-- The offsets of the newlines among characters of which the first is at `offset`. -/
def newlines (offset : Nat) : List Char → List Nat
  | [] => []
  | c :: rest =>
    if c = '\n' then offset :: newlines (offset + c.utf8Size) rest
    else newlines (offset + c.utf8Size) rest

/-- The word behind a word, if there is one: the sum is checked for overflow. -/
def succ? (word : UInt32) : Option UInt32 := if word = 4294967295 then none else some (word + 1)

/-- The offsets at which lines start: that of the text, and those behind newlines. -/
def starts? (text : String) : Option (Array UInt32) := do
  let behind ← (newlines 0 text.toList).mapM fun offset => succ? (UInt32.ofNat offset)
  return (0 :: behind).toArray

/-! ### Halving -/

/-- Where `p` stops to hold in a window of an array in which it holds of some elements and of
    none behind them. -/
def narrow {α : Type} (p : α → Bool) (xs : Array α) (base size : Nat)
    (h : base + size ≤ xs.size) : Nat :=
  if many : 1 < size then
    if p xs[base + size / 2] then
      narrow p xs (base + size / 2) (size - size / 2) (by omega)
    else narrow p xs base (size - size / 2) (by omega)
  else if one : size = 1 then
    if p xs[base] then base + 1 else base
  else base
termination_by size

/-- The number of elements in front of those of which `p` does not hold. -/
def partitionPoint {α : Type} (p : α → Bool) (xs : Array α) : Nat :=
  narrow p xs 0 xs.size (by omega)

/-! ### Boundaries -/

/-- Whether an offset is the start of a character or the end of the text. -/
def isBoundary (text : String) (offset : Nat) : Bool := String.Pos.Raw.isValid text ⟨offset⟩

/-- The last boundary up to an offset, searched for downwards. -/
def floor? (text : String) : Nat → Option Nat
  | 0 => if isBoundary text 0 then some 0 else none
  | offset + 1 =>
    if isBoundary text (offset + 1) then some (offset + 1) else floor? text offset

/-- The text between two offsets, which have to be boundaries in order. -/
def slice? (text : String) (start stop : Nat) : Option String :=
  if start ≤ stop ∧ isBoundary text start ∧ isBoundary text stop then
    some (String.Pos.Raw.extract text ⟨start⟩ ⟨stop⟩)
  else none

/-! ### Lookup -/

/-- The position of an offset by the index of the lines; an offset past the end counts as the
    end. -/
def lookup? (text : String) (offset : UInt32) : Option Position := do
  let starts ← starts? text
  let offset := min offset (UInt32.ofNat text.utf8ByteSize)
  let line := partitionPoint (fun start => decide (start ≤ offset)) starts - 1
  let start ← starts[line]?
  let stop ← floor? text offset.toNat
  let piece ← slice? text start.toNat stop
  return ⟨line, piece.length⟩

end LineIndex

end Transclude
