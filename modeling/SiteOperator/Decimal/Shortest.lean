import SiteOperator.Decimal.Binary64

/-!
# Decimal texts of doubles

`Binary64.shortest` is the decimal with the fewest digits that reads back as the same double, and
of those the nearest.  It tests the two neighbours of the value on one decimal grid after the
other, from the coarsest, against the interval of reals that round to the double.  A
`NumberLayout` then says how such a decimal is written.
-/

namespace SiteOperator

/-- A non-negative decimal: `significand * 10 ^ power`. -/
structure Decimal where
  significand : Nat
  power : Int
  deriving DecidableEq

namespace Binary64

/-- The first grid, counted down from `power`, on which a neighbour of the value `4 * m * unit`
lies in the interval of reals that round to it.  All three of `low`, `value` and `high` are in
quarters of the unit `num / den`. -/
def shortestFrom (num den low value high : Nat) (inclusive : Bool) : Nat → Int → Decimal
  | 0, power => ⟨0, power⟩
  | fuel + 1, power =>
      let step := den * Nat.pow 10 power.toNat
      let scale := num * Nat.pow 10 (-power).toNat
      let below := value * scale / step
      let above := below + 1
      let within (c : Nat) : Bool :=
        if inclusive then decide (low * scale ≤ c * step) && decide (c * step ≤ high * scale)
        else decide (low * scale < c * step) && decide (c * step < high * scale)
      let nearer :=
        let under := value * scale - below * step
        let beyond := above * step - value * scale
        if under < beyond then below
        else if beyond < under then above
        else below + below % 2
      if within below && within above then ⟨nearer, power⟩
      else if within below then ⟨below, power⟩
      else if within above then ⟨above, power⟩
      else shortestFrom num den low value high inclusive fuel (power - 1)

/-- The decimal of fewest digits that reads back as the absolute value, and of those the
nearest. -/
def shortest (x : Binary64) : Decimal :=
  if x.significand = 0 then ⟨0, 0⟩
  else
    let unit := x.exponent - 2
    let value := 4 * x.significand
    let low :=
      if x.significand = Nat.pow 2 52 && decide (leastExponent < x.exponent) then value - 1
      else value - 2
    let magnitude : Int := (x.significand.log2 : Int) + x.exponent
    let first : Int := magnitude * 30103 / 100000 + 2
    shortestFrom (Nat.pow 2 unit.toNat) (Nat.pow 2 (-unit).toNat) low value (value + 2)
      (x.significand % 2 = 0) 40 first

end Binary64

/-- How a decimal is written. -/
structure NumberLayout where
  /-- The exponents of the leading digit that are written without an exponent: from the first
  number up to, but not including, the second; every exponent if there is no range. -/
  positional : Option (Int × Int)
  /-- Whether an integral value keeps a zero after the point. -/
  keepsFraction : Bool

namespace NumberLayout

def positionalText (layout : NumberLayout) (d : Decimal) : String :=
  let digits := toString d.significand
  if 0 ≤ d.power then
    digits ++ String.ofList (List.replicate d.power.toNat '0') ++
      (if layout.keepsFraction then ".0" else "")
  else
    let places := (-d.power).toNat
    let padded := List.replicate (places + 1 - digits.length) '0' ++ digits.toList
    let whole := padded.take (padded.length - places)
    String.ofList (whole ++ '.' :: padded.drop (padded.length - places))

/-- A decimal with an exponent, whose sign is always written. -/
def exponentText (d : Decimal) (leading : Int) : String :=
  let mantissa := match (toString d.significand).toList with
    | [] => ""
    | first :: [] => String.ofList [first]
    | first :: rest => String.ofList (first :: '.' :: rest)
  mantissa ++ (if 0 ≤ leading then "e+" else "e-") ++ toString leading.natAbs

def render (layout : NumberLayout) (x : Binary64) : String :=
  let d := x.shortest
  let leading : Int := d.power + (toString d.significand).length - 1
  let body := match layout.positional with
    | some (least, bound) =>
        if decide (least ≤ leading) && decide (leading < bound) then layout.positionalText d
        else exponentText d leading
    | none => layout.positionalText d
  (if x.negative then "-" else "") ++ body

/-- Numbers in JSON texts: positional from `10 ^ -5` up to, but not including, `10 ^ 16`, and
never without a fraction or an exponent. -/
def json : NumberLayout := ⟨some (-5, 16), true⟩

/-- Sample values of metrics: never an exponent, and no fraction that is zero. -/
def sample : NumberLayout := ⟨none, false⟩

end NumberLayout

/-- The text with exactly one decimal place, the exact value rounded half to even. -/
def Binary64.oneDecimal (x : Binary64) : String :=
  let (num, den) := x.ratio
  let tenths := roundHalfEven (num * 10) den
  (if x.negative then "-" else "") ++ toString (tenths / 10) ++ "." ++ toString (tenths % 10)

end SiteOperator
