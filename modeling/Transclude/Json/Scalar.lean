/-
  Transclude/Json/Scalar.lean
  ===========================
  **Reading words, numbers and strings.**

  Each reader takes the characters from its first one on and gives back what it
  read and what is left.  A string is read up to and including its closing quote;
  the opening one has been taken.
-/
import Transclude.Json.Fault
import Transclude.Json.Number
import Transclude.Text.Hex

namespace Transclude.Json

def isSpace (c : Char) : Bool := c == ' ' || c == '\n' || c == '\t' || c == '\r'

def skipSpace (chars : List Char) : List Char := chars.dropWhile isSpace

/-- Reads the rest of a word whose spelling is fixed. -/
def readWord {α : Type} (meaning : α) : List Char → List Char → Except Stop (α × List Char)
  | [], chars => .ok (meaning, chars)
  | _ :: _, [] => .error ⟨.endInValue, [], 0⟩
  | e :: expected, c :: rest =>
    if c = e then readWord meaning expected rest else .error ⟨.expectedIdent, c :: rest, 1⟩

/-! ### Numbers -/

/-- Digits without a leading zero, or a single zero. -/
def readWhole : List Char → Except Stop (List Char × List Char)
  | [] => .error ⟨.endInValue, [], 0⟩
  | c :: rest =>
    if c = '0' then
      if rest.head?.any Char.isDigit then .error ⟨.invalidNumber, rest, 1⟩ else .ok ([c], rest)
    else if c.isDigit then .ok (c :: rest.takeWhile Char.isDigit, rest.dropWhile Char.isDigit)
    else .error ⟨.invalidNumber, c :: rest, 1⟩

/-- A point and the digits behind it, of which there is at least one. -/
def readFraction : List Char → Except Stop (Option (List Char) × List Char)
  | '.' :: rest =>
    match rest.takeWhile Char.isDigit with
    | [] =>
      if rest.isEmpty then .error ⟨.endInValue, rest, 0⟩ else .error ⟨.invalidNumber, rest, 1⟩
    | digits => .ok (some digits, rest.dropWhile Char.isDigit)
  | chars => .ok (none, chars)

/-- The digits of an exponent, of which there is at least one. -/
def readExponentDigits (negative : Bool) (chars : List Char) :
    Except Stop (Option Exponent × List Char) :=
  match chars.takeWhile Char.isDigit with
  | [] =>
    if chars.isEmpty then .error ⟨.endInValue, chars, 0⟩ else .error ⟨.invalidNumber, chars, 1⟩
  | digits => .ok (some ⟨negative, digits⟩, chars.dropWhile Char.isDigit)

def readExponent : List Char → Except Stop (Option Exponent × List Char)
  | c :: rest =>
    if c = 'e' ∨ c = 'E' then
      match rest with
      | '-' :: rest => readExponentDigits true rest
      | '+' :: rest => readExponentDigits false rest
      | rest => readExponentDigits false rest
    else .ok (none, c :: rest)
  | [] => .ok (none, [])

/-- Reads a number behind its sign. -/
def readNumber (negative : Bool) (chars : List Char) : Except Stop (Number × List Char) := do
  let (whole, rest) ← readWhole chars
  let (fraction, rest) ← readFraction rest
  let (exponent, rest) ← readExponent rest
  return (⟨negative, whole, fraction, exponent⟩, rest)

/-! ### Strings -/

/-- The value of four hexadecimal digits. -/
def unit? (a b c d : Char) : Option Nat := do
  return (((← Hex.value? a) * 16 + (← Hex.value? b)) * 16 + (← Hex.value? c)) * 16 + (← Hex.value? d)

def isLeading (unit : Nat) : Bool := 0xD800 ≤ unit && unit < 0xDC00

def isTrailing (unit : Nat) : Bool := 0xDC00 ≤ unit && unit < 0xE000

/-- The character that two surrogates stand for. -/
def pairChar (leading trailing : Nat) : Char :=
  Char.ofNat (0x10000 + (leading - 0xD800) * 0x400 + (trailing - 0xDC00))

/-- The characters that are escaped by a letter or a sign of their own. -/
def shortEscape? (c : Char) : Option Char :=
  if c = '"' then some '"'
  else if c = '\\' then some '\\'
  else if c = '/' then some '/'
  else if c = 'b' then some '\x08'
  else if c = 'f' then some '\x0c'
  else if c = 'n' then some '\n'
  else if c = 'r' then some '\r'
  else if c = 't' then some '\t'
  else none

/-- Where reading stops when no four hexadecimal digits are to be had: four bytes
    are taken, or all if there are fewer. -/
def hexStop (chars : List Char) : Stop :=
  if byteLength chars < 4 then ⟨.endInString, [], 0⟩ else ⟨.invalidEscape, chars, 4⟩

/-- Puts a character before the text that is read. -/
def andThen (c : Char) (reading : Except Stop (List Char × List Char)) :
    Except Stop (List Char × List Char) :=
  reading.map fun (text, rest) => (c :: text, rest)

/-- Reads a string up to its closing quote. -/
def readString : List Char → Except Stop (List Char × List Char)
  | [] => .error ⟨.endInString, [], 0⟩
  | '"' :: rest => .ok ([], rest)
  | '\\' :: 'u' :: a :: b :: c :: d :: rest =>
    match unit? a b c d with
    | none => .error (hexStop (a :: b :: c :: d :: rest))
    | some unit =>
      if isTrailing unit then .error ⟨.loneSurrogate, rest, 0⟩
      else if isLeading unit then
        match rest with
        | [] => .error ⟨.endInString, [], 0⟩
        | ['\\'] => .error ⟨.endInString, [], 0⟩
        | '\\' :: 'u' :: a :: b :: c :: d :: rest =>
          match unit? a b c d with
          | none => .error (hexStop (a :: b :: c :: d :: rest))
          | some trailing =>
            if isTrailing trailing then andThen (pairChar unit trailing) (readString rest)
            else .error ⟨.loneSurrogate, rest, 0⟩
        | '\\' :: 'u' :: rest => .error (hexStop rest)
        | '\\' :: rest => .error ⟨.endOfHexEscape, rest, 1⟩
        | rest => .error ⟨.endOfHexEscape, rest, 1⟩
      else andThen (Char.ofNat unit) (readString rest)
  | '\\' :: 'u' :: rest => .error (hexStop rest)
  | '\\' :: [] => .error ⟨.endInString, [], 0⟩
  | '\\' :: e :: rest =>
    match shortEscape? e with
    | some c => andThen c (readString rest)
    | none => .error ⟨.invalidEscape, e :: rest, 1⟩
  | c :: rest =>
    if c.toNat < 0x20 then .error ⟨.controlCharacter, c :: rest, 1⟩
    else andThen c (readString rest)

end Transclude.Json
