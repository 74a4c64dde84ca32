/-!
# Binary floating point numbers of 64 bits

A finite double is a sign, a significand and a power of two.  Every operation computes the exact
result as a quotient of natural numbers and rounds it once, so nothing depends on the arithmetic of
the machine.  `ofParts?` is the one reading that rounds more than once: it first rounds the
significand and then scales it by a rounded power of ten.
-/

namespace SiteOperator

/-- The quotient of two natural numbers rounded to the nearest integer, a half going to the even
neighbour. -/
def roundHalfEven (num den : Nat) : Nat :=
  let whole := num / den
  let rest := 2 * (num % den)
  if rest < den then whole
  else if den < rest then whole + 1
  else whole + whole % 2

/-- A finite double: `significand * 2 ^ exponent` with a sign.  The significand has at most 53
bits and the exponent is at least `-1074`; a smaller significand than `2 ^ 52` occurs only with
the least exponent. -/
structure Binary64 where
  negative : Bool
  significand : Nat
  exponent : Int
  deriving DecidableEq

namespace Binary64

def leastExponent : Int := -1074

def greatestExponent : Int := 971

def zero (negative : Bool) : Binary64 := ⟨negative, 0, leastExponent⟩

def isZero (x : Binary64) : Bool := x.significand = 0

def neg (x : Binary64) : Binary64 := { x with negative := !x.negative }

/-- `num / den` in units of `2 ^ exponent`, as a quotient of natural numbers. -/
def inUnits (num den : Nat) (exponent : Int) : Nat × Nat :=
  (num * Nat.pow 2 (-exponent).toNat, den * Nat.pow 2 exponent.toNat)

/-- The nearest double to `num / den`, a tie going to the even significand; nothing if the value
is beyond the greatest double. -/
def ofRatio? (negative : Bool) (num den : Nat) : Option Binary64 :=
  if num = 0 then some (zero negative)
  else
    let guess : Int := (num.log2 : Int) - (den.log2 : Int) - 53
    let (n, d) := inUnits num den guess
    let exponent := max leastExponent (if Nat.pow 2 53 ≤ n / d then guess + 1 else guess)
    let (n, d) := inUnits num den exponent
    let rounded := roundHalfEven n d
    let (significand, exponent) :=
      if rounded = Nat.pow 2 53 then (Nat.pow 2 52, exponent + 1) else (rounded, exponent)
    if greatestExponent < exponent then none else some ⟨negative, significand, exponent⟩

def ofNat? (n : Nat) : Option Binary64 := ofRatio? false n 1

def ratio (x : Binary64) : Nat × Nat :=
  (x.significand * Nat.pow 2 x.exponent.toNat, Nat.pow 2 (-x.exponent).toNat)

def mul? (x y : Binary64) : Option Binary64 :=
  let (a, b) := x.ratio
  let (c, d) := y.ratio
  ofRatio? (x.negative != y.negative) (a * c) (b * d)

def div? (x y : Binary64) : Option Binary64 :=
  let (a, b) := x.ratio
  let (c, d) := y.ratio
  if c = 0 then none else ofRatio? (x.negative != y.negative) (a * d) (b * c)

/-- The signed value in units of a power of two that is at most the number's own exponent. -/
def scaled (x : Binary64) (unit : Int) : Int :=
  let size : Int := x.significand * Nat.pow 2 (x.exponent - unit).toNat
  if x.negative then -size else size

def add? (x y : Binary64) : Option Binary64 :=
  let unit := min x.exponent y.exponent
  let sum := x.scaled unit + y.scaled unit
  if sum = 0 then some (zero (x.negative && y.negative))
  else ofRatio? (decide (sum < 0)) (sum.natAbs * Nat.pow 2 unit.toNat) (Nat.pow 2 (-unit).toNat)

/-- Whether one number is at most another; the two zeros are equal. -/
def le (x y : Binary64) : Bool :=
  let unit := min x.exponent y.exponent
  decide (x.scaled unit ≤ y.scaled unit)

def greatestPowerOfTen : Nat := 308

/-- Scales by a power of ten.  A power beyond `10 ^ 308` is applied in pieces, at most `fuel` of
them, which is enough for the quotient to reach zero. -/
def scaleByTen? : Nat → Binary64 → Int → Option Binary64
  | 0, x, _ => some x
  | fuel + 1, x, power =>
      if power.natAbs ≤ greatestPowerOfTen then
        (ofNat? (Nat.pow 10 power.natAbs)).bind fun factor =>
          if 0 ≤ power then x.mul? factor else x.div? factor
      else if x.isZero then some x
      else if 0 ≤ power then none
      else
        (ofNat? (Nat.pow 10 greatestPowerOfTen)).bind fun factor =>
          (x.div? factor).bind fun smaller => scaleByTen? fuel smaller (power + greatestPowerOfTen)

/-- The double read from a significand of at most 64 bits and a power of ten: the significand is
rounded first and then scaled. -/
def ofParts? (negative : Bool) (significand : Nat) (power : Int) : Option Binary64 :=
  (ofNat? significand).bind fun rounded =>
    (scaleByTen? 4 rounded power).map fun x => if negative then x.neg else x

end Binary64

end SiteOperator
