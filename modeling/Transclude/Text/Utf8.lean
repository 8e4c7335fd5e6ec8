/-
  Transclude/Text/Utf8.lean
  =========================
  **Bytes as text.**

  Bytes are read one at a time by a machine whose state is the character begun but
  not yet finished: the bits collected so far, how many bytes are still to come,
  and the range in which the next one must lie.  The ranges exclude overlong
  forms, surrogates and values above U+10FFFF at the second byte already, so a
  begun character is given up exactly at the first byte that cannot continue it,
  and that byte is then read as a first byte.  What has been given up is one
  maximal ill-formed piece.

  Ill-formed pieces are `none` in the list of pieces.  `lossy` writes U+FFFD for
  each of them; `decode?` refuses a text that has one.
-/

namespace Transclude.Utf8

/-- A character of which some bytes have been read. -/
structure Pending where
  /-- The value of the bits read so far. -/
  bits : Nat
  /-- The least byte that may come next. -/
  low : UInt8
  /-- The greatest byte that may come next. -/
  high : UInt8
  /-- How many bytes come after the next one. -/
  more : Nat
deriving DecidableEq, Repr

/-- What a byte gives rise to: finished pieces, and a character begun. -/
abbrev Step := List (Option Char) × Option Pending

/-- Reads the first byte of a character. -/
def start (b : UInt8) : Step :=
  if b < 0x80 then ([some (Char.ofNat b.toNat)], none)
  else if b < 0xC2 then ([none], none)
  else if b < 0xE0 then ([], some ⟨b.toNat - 0xC0, 0x80, 0xBF, 0⟩)
  else if b < 0xF0 then
    ([], some ⟨b.toNat - 0xE0, if b = 0xE0 then 0xA0 else 0x80,
      if b = 0xED then 0x9F else 0xBF, 1⟩)
  else if b < 0xF5 then
    ([], some ⟨b.toNat - 0xF0, if b = 0xF0 then 0x90 else 0x80,
      if b = 0xF4 then 0x8F else 0xBF, 2⟩)
  else ([none], none)

/-- Reads one byte: it continues the character begun, or ends it as ill-formed
    and starts anew. -/
def step : Option Pending → UInt8 → Step
  | none, b => start b
  | some p, b =>
    if p.low ≤ b ∧ b ≤ p.high then
      let bits := p.bits * 64 + (b.toNat - 0x80)
      match p.more with
      | 0 => ([some (Char.ofNat bits)], none)
      | more + 1 => ([], some ⟨bits, 0x80, 0xBF, more⟩)
    else (none :: (start b).1, (start b).2)

/-- The characters and ill-formed pieces of a byte string, in order. -/
def piecesFrom : Option Pending → List UInt8 → List (Option Char)
  | none, [] => []
  | some _, [] => [none]
  | state, b :: rest => (step state b).1 ++ piecesFrom (step state b).2 rest

def pieces (bytes : List UInt8) : List (Option Char) := piecesFrom none bytes

/-- What stands for an ill-formed piece. -/
def replacement : Char := '�'

/-- The text of a byte string, each ill-formed piece replaced. -/
def lossy (bytes : List UInt8) : String :=
  String.ofList ((pieces bytes).map (·.getD replacement))

/-- The text of a byte string that has no ill-formed piece. -/
def decode? (bytes : List UInt8) : Option String :=
  ((pieces bytes).mapM id).map String.ofList

/-- The bytes of a text. -/
def encode (text : String) : List UInt8 := text.toList.flatMap String.utf8EncodeChar

end Transclude.Utf8
