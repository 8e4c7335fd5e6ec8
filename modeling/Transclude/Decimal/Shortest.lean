/-
  Transclude/Decimal/Shortest.lean
  ================================
  **The double nearest to a decimal, written with the fewest digits.**

  A double is m · 2^q with m below 2^53.  Around it lies the interval of the reals
  that are rounded to it, ends included when m is even.  Grids are tried from the
  coarsest on, whose step is the power of ten above the double, to the one of
  seventeen significant digits; on each, only the two neighbours of the double can be
  the nearest point of the interval.  The first grid with a neighbour in the interval
  gives the digits.

  All arithmetic is exact, on fractions of natural numbers.
-/
import Transclude.Json.Number

namespace Transclude.Decimal

/-- A non-negative fraction. -/
structure Fraction where
  num : Nat
  den : Nat
deriving DecidableEq, Repr

namespace Fraction

def le (a b : Fraction) : Bool := decide (a.num * b.den ≤ b.num * a.den)

def lt (a b : Fraction) : Bool := decide (a.num * b.den < b.num * a.den)

/-- `n · base ^ e`. -/
def scaled (n base : Nat) (e : Int) : Fraction :=
  if 0 ≤ e then ⟨n * Nat.pow base e.toNat, 1⟩ else ⟨n, Nat.pow base (- e).toNat⟩

/-- The distance of two fractions. -/
def distance (a b : Fraction) : Fraction :=
  ⟨a.num * b.den - b.num * a.den + (b.num * a.den - a.num * b.den), a.den * b.den⟩

/-- The nearest whole number, the even one of two. -/
def roundEven (a : Fraction) : Nat :=
  let whole := a.num / a.den
  let twice := 2 * (a.num % a.den)
  if twice < a.den then whole
  else if a.den < twice then whole + 1
  else if whole % 2 = 0 then whole
  else whole + 1

/-- The exponent `e` with `base ^ e ≤ a < base ^ (e + 1)`, for `a ≠ 0`, searched from
    an estimate that is at most `fuel` too small. -/
def exponentFrom (a : Fraction) (base : Nat) : Nat → Int → Int
  | 0, e => e
  | fuel + 1, e => if a.lt (scaled 1 base (e + 1)) then e else exponentFrom a base fuel (e + 1)

end Fraction

/-- A double as `m · 2 ^ q`. -/
structure Binary where
  m : Nat
  q : Int
deriving DecidableEq, Repr

namespace Binary

/-- The least exponent of a double. -/
def leastExponent : Int := -1074

/-- The double nearest to a fraction other than zero, exponents unbounded above. -/
def nearest (a : Fraction) : Binary :=
  let estimate : Int := (a.num.log2 : Int) - a.den.log2 - 1
  let q := max (Fraction.exponentFrom a 2 3 estimate - 52) leastExponent
  let m := (if 0 ≤ q then Fraction.roundEven ⟨a.num, a.den * Nat.pow 2 q.toNat⟩
    else Fraction.roundEven ⟨a.num * Nat.pow 2 (- q).toNat, a.den⟩)
  if m = Nat.pow 2 53 then ⟨Nat.pow 2 52, q + 1⟩ else ⟨m, q⟩

def value (b : Binary) : Fraction := Fraction.scaled b.m 2 b.q

/-- Half-way to the double below. -/
def lower (b : Binary) : Fraction :=
  if b.m = Nat.pow 2 52 ∧ leastExponent < b.q then Fraction.scaled (4 * b.m - 1) 2 (b.q - 2)
  else Fraction.scaled (2 * b.m - 1) 2 (b.q - 1)

/-- Half-way to the double above. -/
def upper (b : Binary) : Fraction := Fraction.scaled (2 * b.m + 1) 2 (b.q - 1)

/-- Whether a fraction is rounded to the double. -/
def covers (b : Binary) (a : Fraction) : Bool :=
  if b.m % 2 = 0 then b.lower.le a && a.le b.upper else b.lower.lt a && a.lt b.upper

end Binary

/-- Whole digits and the power of ten that scales them. -/
structure Digits where
  digits : Nat
  exponent : Int
deriving DecidableEq, Repr

/-- The nearer of the two neighbours of a double on the grid of `10 ^ e` that is
    rounded to it, the upper one of two that are equally near. -/
def onGrid? (b : Binary) (e : Int) : Option Digits :=
  let v := b.value
  let below := (if 0 ≤ e then v.num / (v.den * Nat.pow 10 e.toNat)
    else v.num * Nat.pow 10 (- e).toNat / v.den)
  let point (n : Nat) : Fraction := Fraction.scaled n 10 e
  match b.covers (point below), b.covers (point (below + 1)) with
  | true, true =>
    if (v.distance (point below)).lt (v.distance (point (below + 1))) then some ⟨below, e⟩
    else some ⟨below + 1, e⟩
  | true, false => some ⟨below, e⟩
  | false, true => some ⟨below + 1, e⟩
  | false, false => none

/-- The fewest digits that are rounded to a double other than zero. -/
def shortest (b : Binary) : Digits :=
  let v := b.value
  let estimate : Int := ((v.num.log2 : Int) - v.den.log2 - 1) * 30103 / 100000 - 1
  let order := Fraction.exponentFrom v 10 4 estimate
  ((List.range 18).findSome? fun (n : Nat) => onGrid? b (order + 1 - n)).getD ⟨0, 0⟩

/-- Digits in positional notation, with at least one on each side of the point. -/
def Digits.positional (d : Digits) : List Char :=
  let digits := Nat.toDigits 10 d.digits
  if 0 ≤ d.exponent then digits ++ List.replicate d.exponent.toNat '0' ++ ['.', '0']
  else
    let places := (- d.exponent).toNat
    let padded := List.replicate (places + 1 - digits.length) '0' ++ digits
    let whole := padded.take (padded.length - places)
    whole ++ '.' :: padded.drop (padded.length - places)

/-- A number as the double nearest to it is shown.  Exponents far out of range are not
    worked out: the double is then infinite or zero. -/
def showNearest (n : Json.Number) : String :=
  let sign := if n.negative then ['-'] else []
  let order : Int := n.significantDigits + n.scale
  let magnitude :=
    if n.significantDigits = 0 || order < -400 then ['0', '.', '0']
    else if !n.inRange then ['i', 'n', 'f']
    else
      let b := Binary.nearest (Fraction.scaled n.mantissa 10 n.scale)
      if b.m = 0 then ['0', '.', '0'] else (shortest b).positional
  String.ofList (sign ++ magnitude)

end Transclude.Decimal
