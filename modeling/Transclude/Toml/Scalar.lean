/-
  Transclude/Toml/Scalar.lean
  ===========================
  **Settings documents: spaces, strings, numbers and dates.**

  A reader takes the characters from its first one on and gives back what it read and
  what is left; `none` says that the document is malformed.
-/
import Transclude.Text.Hex
import Transclude.Toml.Value

namespace Transclude.Toml

/-! ### Spaces and line ends -/

def isSpace (c : Char) : Bool := c == ' ' || c == '\t'

def skipSpace (chars : List Char) : List Char := chars.dropWhile isSpace

/-- The characters of a comment, and of a text on one line: no controls but the tab. -/
def isPlain (c : Char) : Bool := c == '\t' || (0x20 ≤ c.toNat && c.toNat != 0x7F)

def skipComment : List Char → List Char
  | '#' :: rest => rest.dropWhile isPlain
  | chars => chars

def newline? : List Char → Option (List Char)
  | '\n' :: rest => some rest
  | '\r' :: '\n' :: rest => some rest
  | _ => none

/-- What follows a line whose content has been read. -/
def endLine (chars : List Char) : Option (List Char) :=
  match skipComment (skipSpace chars) with
  | [] => some []
  | rest => newline? rest

/-- Skips spaces, line ends and comments between the items of an array. -/
def skipLines (inComment : Bool) : List Char → Option (List Char)
  | [] => some []
  | '\n' :: rest => skipLines false rest
  | '\r' :: '\n' :: rest => skipLines false rest
  | c :: rest =>
    if inComment then
      if isPlain c then skipLines true rest else none
    else if isSpace c then skipLines false rest
    else if c = '#' then skipLines true rest
    else some (c :: rest)

/-! ### Strings -/

/-- The character whose code point is written in hexadecimal. -/
def scalar? (digits : List Char) : Option Char := do
  let values ← digits.mapM Hex.value?
  let n := values.foldl (fun n d => 16 * n + d) 0
  if n < 0xD800 ∨ (0xDFFF < n ∧ n < 0x110000) then some (Char.ofNat n) else none

def shortEscape? (c : Char) : Option Char :=
  if c = 'b' then some '\x08'
  else if c = 't' then some '\t'
  else if c = 'n' then some '\n'
  else if c = 'f' then some '\x0c'
  else if c = 'r' then some '\r'
  else if c = '"' then some '"'
  else if c = '\\' then some '\\'
  else none

/-- Puts a character before the text that is read. -/
def andThen (c : Char) (reading : Option (List Char × List Char)) :
    Option (List Char × List Char) :=
  reading.map fun (text, rest) => (c :: text, rest)

/-- Reads a string on one line up to its closing quote. -/
def readBasic : List Char → Option (List Char × List Char)
  | [] => none
  | '"' :: rest => some ([], rest)
  | '\\' :: 'u' :: a :: b :: c :: d :: rest => do
    andThen (← scalar? [a, b, c, d]) (readBasic rest)
  | '\\' :: 'U' :: a :: b :: c :: d :: e :: f :: g :: h :: rest => do
    andThen (← scalar? [a, b, c, d, e, f, g, h]) (readBasic rest)
  | '\\' :: e :: rest => do
    andThen (← shortEscape? e) (readBasic rest)
  | c :: rest => if isPlain c && c != '\\' then andThen c (readBasic rest) else none

/-- Whether nothing but space is left on a line, and the line ends. -/
def endsHere (chars : List Char) : Bool := (newline? (skipSpace chars)).isSome

/-- Reads a string over several lines up to its three closing quotes, before which one or
    two more may stand.  `joining` is set behind a backslash at the end of a line, and
    drops the space that follows. -/
def readBlock (joining : Bool) : List Char → Option (List Char × List Char)
  | [] => none
  | '\n' :: rest => if joining then readBlock true rest else andThen '\n' (readBlock false rest)
  | '\r' :: '\n' :: rest =>
    if joining then readBlock true rest else andThen '\n' (readBlock false rest)
  | '"' :: '"' :: '"' :: '"' :: '"' :: rest => some (['"', '"'], rest)
  | '"' :: '"' :: '"' :: '"' :: rest => some (['"'], rest)
  | '"' :: '"' :: '"' :: rest => some ([], rest)
  | '\\' :: 'u' :: a :: b :: c :: d :: rest => do
    andThen (← scalar? [a, b, c, d]) (readBlock false rest)
  | '\\' :: 'U' :: a :: b :: c :: d :: e :: f :: g :: h :: rest => do
    andThen (← scalar? [a, b, c, d, e, f, g, h]) (readBlock false rest)
  | '\\' :: e :: rest =>
    if endsHere (e :: rest) then readBlock true (e :: rest)
    else do
      andThen (← shortEscape? e) (readBlock false rest)
  | c :: rest =>
    if joining && isSpace c then readBlock true rest
    else if isPlain c && c != '\\' then andThen c (readBlock false rest)
    else none

/-- Reads a string without escapes on one line. -/
def readLiteral (chars : List Char) : Option (List Char × List Char) :=
  let isText (c : Char) : Bool := isPlain c && c != '\''
  match chars.dropWhile isText with
  | '\'' :: rest => some (chars.takeWhile isText, rest)
  | _ => none

/-- Reads a string without escapes over several lines. -/
def readLiteralBlock : List Char → Option (List Char × List Char)
  | [] => none
  | '\n' :: rest => andThen '\n' (readLiteralBlock rest)
  | '\r' :: '\n' :: rest => andThen '\n' (readLiteralBlock rest)
  | '\'' :: '\'' :: '\'' :: '\'' :: '\'' :: rest => some (['\'', '\''], rest)
  | '\'' :: '\'' :: '\'' :: '\'' :: rest => some (['\''], rest)
  | '\'' :: '\'' :: '\'' :: rest => some ([], rest)
  | c :: rest => if isPlain c then andThen c (readLiteralBlock rest) else none

/-- A line end right behind three opening quotes does not belong to the text. -/
def dropNewline (chars : List Char) : List Char := (newline? chars).getD chars

/-- Reads a string of any form. -/
def readString : List Char → Option (List Char × List Char)
  | '"' :: '"' :: '"' :: rest => readBlock false (dropNewline rest)
  | '"' :: rest => readBasic rest
  | '\'' :: '\'' :: '\'' :: rest => readLiteralBlock (dropNewline rest)
  | '\'' :: rest => readLiteral rest
  | _ => none

/-! ### Numbers -/

/-- Digits without the underscores between them, of which each has a digit on both
    sides. -/
def digits? (isDigit : Char → Bool) : List Char → Option (List Char)
  | [] => none
  | [c] => if isDigit c then some [c] else none
  | c :: '_' :: rest => if isDigit c then (digits? isDigit rest).map (c :: ·) else none
  | c :: rest => if isDigit c then (digits? isDigit rest).map (c :: ·) else none

/-- Decimal digits that do not start with a needless zero. -/
def whole? (chars : List Char) : Option (List Char) := do
  match ← digits? Char.isDigit chars with
  | '0' :: _ :: _ => none
  | digits => some digits

def splitSign : List Char → Bool × List Char
  | '-' :: rest => (true, rest)
  | '+' :: rest => (false, rest)
  | chars => (false, chars)

def radix? (base : Nat) (isDigit : Char → Bool) (chars : List Char) : Option Int := do
  let values ← (← digits? isDigit chars).mapM Hex.value?
  let value : Nat := values.foldl (fun n d => base * n + d) 0
  return value

/-- Integers are signed words of 64 bits. -/
def inWord (n : Int) : Bool :=
  decide (-9223372036854775808 ≤ n ∧ n ≤ 9223372036854775807)

def integer? (token : List Char) : Option Int := do
  let n ← match token with
    | '0' :: 'x' :: digits => radix? 16 (fun c => (Hex.value? c).isSome) digits
    | '0' :: 'o' :: digits => radix? 8 (fun c => '0' ≤ c && c ≤ '7') digits
    | '0' :: 'b' :: digits => radix? 2 (fun c => c == '0' || c == '1') digits
    | _ => do
      let value : Int := Json.digitsValue (← whole? (splitSign token).2)
      some (if (splitSign token).1 then -value else value)
  if inWord n then some n else none

/-- The power of ten of a number, from its mark on. -/
def exponent? : List Char → Option (Option Json.Exponent)
  | [] => some none
  | c :: rest =>
    if c = 'e' ∨ c = 'E' then do
      let digits ← digits? Char.isDigit (splitSign rest).2
      some (some ⟨(splitSign rest).1, digits⟩)
    else none

def isDigitOrUnderscore (c : Char) : Bool := c.isDigit || c == '_'

/-- A number with a fraction or a power of ten; digits alone are an integer, however
    many there are. -/
def decimal? (token : List Char) : Option Json.Number := do
  let (negative, chars) := splitSign token
  let whole ← whole? (chars.takeWhile isDigitOrUnderscore)
  match chars.dropWhile isDigitOrUnderscore with
  | '.' :: rest => do
    let fraction ← digits? Char.isDigit (rest.takeWhile isDigitOrUnderscore)
    let exponent ← exponent? (rest.dropWhile isDigitOrUnderscore)
    some ⟨negative, whole, some fraction, exponent⟩
  | rest => do
    let exponent ← (← exponent? rest)
    some ⟨negative, whole, none, some exponent⟩

/-- A number that is no integer.  One that is too large is refused, and one that is too
    small is negative infinity. -/
def float? (token : List Char) : Option Float :=
  match splitSign token with
  | (negative, ['i', 'n', 'f']) => some (.infinite negative)
  | (_, ['n', 'a', 'n']) => some .nan
  | _ => do
    let number ← decimal? token
    if number.inRange then some (.finite number)
    else if number.negative then some (.infinite true)
    else none

/-! ### Dates -/

/-- The value of digits, if there are digits only. -/
def digitsOnly? (chars : List Char) : Option Nat :=
  if !chars.isEmpty && chars.all Char.isDigit then some (Json.digitsValue chars) else none

def daysIn (year month : Nat) : Nat :=
  if month = 2 then
    if year % 4 = 0 ∧ (year % 100 ≠ 0 ∨ year % 400 = 0) then 29 else 28
  else if month = 4 ∨ month = 6 ∨ month = 9 ∨ month = 11 then 30
  else 31

/-- Reads a date and leaves the rest. -/
def skipDate : List Char → Option (List Char)
  | y1 :: y2 :: y3 :: y4 :: '-' :: m1 :: m2 :: '-' :: d1 :: d2 :: rest => do
    let year ← digitsOnly? [y1, y2, y3, y4]
    let month ← digitsOnly? [m1, m2]
    let day ← digitsOnly? [d1, d2]
    if 1 ≤ month ∧ month ≤ 12 ∧ 1 ≤ day ∧ day ≤ daysIn year month then some rest else none
  | _ => none

/-- Skips the fraction of a second. -/
def skipFraction : List Char → Option (List Char)
  | '.' :: rest =>
    if rest.head?.any Char.isDigit then some (rest.dropWhile Char.isDigit) else none
  | chars => some chars

/-- Reads a time of day and leaves the rest. -/
def skipTime : List Char → Option (List Char)
  | h1 :: h2 :: ':' :: m1 :: m2 :: ':' :: s1 :: s2 :: rest => do
    let hour ← digitsOnly? [h1, h2]
    let minute ← digitsOnly? [m1, m2]
    let second ← digitsOnly? [s1, s2]
    if hour ≤ 23 ∧ minute ≤ 59 ∧ second ≤ 60 then skipFraction rest else none
  | _ => none

/-- Whether characters are an offset from universal time, or nothing. -/
def isOffset : List Char → Bool
  | [] => true
  | ['Z'] => true
  | ['z'] => true
  | [sign, h1, h2, ':', m1, m2] =>
    (sign == '+' || sign == '-') && (digitsOnly? [h1, h2]).any (· ≤ 23)
      && (digitsOnly? [m1, m2]).any (· ≤ 59)
  | _ => false

def isDate (token : List Char) : Bool := skipDate token == some []

/-- Whether characters are a time of day that may follow a date. -/
def isDayTime (token : List Char) : Bool := (skipTime token).any isOffset

/-- Whether characters are a date, a time, or both with a letter between them. -/
def isDatetime (token : List Char) : Bool :=
  skipTime token == some [] ||
    match skipDate token with
    | some [] => true
    | some ('T' :: time) => isDayTime time
    | some ('t' :: time) => isDayTime time
    | _ => false

/-! ### Bare words -/

/-- The characters of numbers, dates and keywords. -/
def isWord (c : Char) : Bool :=
  c.isAlphanum || c == '+' || c == '-' || c == '.' || c == '_' || c == ':'

def word? (token : List Char) : Option Value :=
  if token = ['t', 'r', 'u', 'e'] then some (.boolean true)
  else if token = ['f', 'a', 'l', 's', 'e'] then some (.boolean false)
  else if isDatetime token then some .datetime
  else
    match integer? token with
    | some n => some (.integer n)
    | none => (float? token).map .float

/-- Reads a number, a date or a keyword.  Between a date and a time a space may stand. -/
def readWord (chars : List Char) : Option (Value × List Char) := do
  let token := chars.takeWhile isWord
  let rest := chars.dropWhile isWord
  let value ← word? token
  match rest with
  | ' ' :: more =>
    if isDate token && isDayTime (more.takeWhile isWord) then
      some (.datetime, more.dropWhile isWord)
    else some (value, rest)
  | _ => some (value, rest)

end Transclude.Toml
