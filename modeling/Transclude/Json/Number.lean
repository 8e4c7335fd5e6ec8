/-
  Transclude/Json/Number.lean
  ===========================
  **Numbers as they are written.**

  A number keeps its digits: nothing is rounded and no zero is dropped.  Only the
  spelling of the exponent is settled, as `e` with an explicit sign.

  A number is in range when the double nearest to it is finite, that is when its
  magnitude is below 2^1024 - 2^970 (a half-way case goes up, to infinity).  For this
  an exponent is taken in digit by digit until it has reached 2^16, and the digits
  after that are passed over: `e655360` counts as `e65536`.  That makes a difference
  only beside as many digits as can balance such an exponent.

  The decimal magnitude is looked at first: below 10^308 every number is in range,
  from 10^309 on none is, and only in between are the digits scaled and compared.
-/

namespace Transclude.Json

structure Exponent where
  negative : Bool
  digits : List Char
deriving DecidableEq, Repr

structure Number where
  negative : Bool
  /-- The digits before the point. -/
  whole : List Char
  /-- The digits behind the point, if there is one. -/
  fraction : Option (List Char)
  exponent : Option Exponent
deriving DecidableEq, Repr

/-- The value of a row of decimal digits. -/
def digitsValue (digits : List Char) : Nat :=
  digits.foldl (fun n c => 10 * n + (c.toNat - 48)) 0

def Exponent.chars (e : Exponent) : List Char :=
  'e' :: (if e.negative then '-' else '+') :: e.digits

/-- From here on an exponent takes in no further digit. -/
def Exponent.ceiling : Nat := Nat.pow 2 16

/-- An exponent without its sign, as far as its digits are taken in. -/
def Exponent.magnitude (e : Exponent) : Nat :=
  e.digits.foldl (fun n c => if n < ceiling then 10 * n + (c.toNat - 48) else n) 0

def Exponent.value (e : Exponent) : Int :=
  if e.negative then - (e.magnitude : Int) else e.magnitude

namespace Number

def fractionDigits (n : Number) : List Char := n.fraction.getD []

/-- The text of a number without its sign. -/
def magnitudeChars (n : Number) : List Char :=
  n.whole
    ++ (match n.fraction with
        | some digits => '.' :: digits
        | none => [])
    ++ (match n.exponent with
        | some e => e.chars
        | none => [])

def chars (n : Number) : List Char :=
  if n.negative then '-' :: n.magnitudeChars else n.magnitudeChars

def text (n : Number) : String := String.ofList n.chars

def magnitudeText (n : Number) : String := String.ofList n.magnitudeChars

/-! ### Range -/

/-- The digits of a number as one whole number. -/
def mantissa (n : Number) : Nat := digitsValue (n.whole ++ n.fractionDigits)

/-- The power of ten that scales the mantissa. -/
def scale (n : Number) : Int :=
  (match n.exponent with
   | some e => e.value
   | none => 0) - n.fractionDigits.length

/-- The least magnitude that is nearer to infinity than to a finite double. -/
def bound : Nat := Nat.pow 2 1024 - Nat.pow 2 970

/-- How many digits the mantissa has, leading zeros apart. -/
def significantDigits (n : Number) : Nat :=
  ((n.whole ++ n.fractionDigits).dropWhile (· == '0')).length

/-- Whether the double nearest to a number is finite. -/
def inRange (n : Number) : Bool :=
  let order : Int := n.significantDigits + n.scale
  if n.significantDigits = 0 then true
  else if order ≤ 308 then true
  else if 310 ≤ order then false
  else if 0 ≤ n.scale then decide (n.mantissa * Nat.pow 10 n.scale.toNat < bound)
  else decide (n.mantissa < bound * Nat.pow 10 (- n.scale).toNat)

end Number

end Transclude.Json
