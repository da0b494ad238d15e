import Blueprint.Decimal.Numeral

/-!
# The value of a numeral

A numeral without fraction and exponent that fits a 64-bit integer is an integer. Any other numeral
is a double: its digits are gathered into a 64-bit significand, digits that no longer fit only count
towards the exponent when they stand before the point, and the significand is then scaled by a power
of ten in floating-point arithmetic. A numeral beyond the doubles has no value.
-/
namespace Blueprint.Numeral

/-- A numeral is read as an integer where it can be. -/
inductive Value where
  | integer (n : Int)
  | float (f : Float)

/-- The significand gathered so far and the exponent that belongs to it. -/
structure Gathered where
  significand : Nat
  exponent : Int
  /-- A digit did not fit any more. -/
  full : Bool := false

/-- The first number that a significand cannot hold. -/
def significandLimit : Nat := 0x10000000000000000

def Gathered.addWhole (g : Gathered) (c : Char) : Gathered :=
  let next := g.significand * 10 + digitValue c
  if g.full || significandLimit ≤ next then { g with exponent := g.exponent + 1, full := true }
  else { g with significand := next }

def Gathered.addFraction (g : Gathered) (c : Char) : Gathered :=
  let next := g.significand * 10 + digitValue c
  if g.full || significandLimit ≤ next then { g with full := true }
  else { g with significand := next, exponent := g.exponent - 1 }

def gather (n : Numeral) : Gathered :=
  let whole := n.whole.foldl Gathered.addWhole ⟨0, 0, false⟩
  (n.fraction.getD []).foldl Gathered.addFraction { whole with full := false }

def tenTo (k : Nat) : Float :=
  Float.ofScientific 1 false k

/-- Divides or multiplies by a power of ten; `none` when the result is beyond the doubles. A double
has powers of ten up to 308, and each step of fuel divides by the largest of them. -/
def scale (f : Float) (exponent : Int) : Nat → Option Float
  | 0 => some f
  | fuel + 1 =>
    if exponent.natAbs ≤ 308 then
      if 0 ≤ exponent then
        let product := f * tenTo exponent.natAbs
        if product.isInf then none else some product
      else some (f / tenTo exponent.natAbs)
    else if f == 0 then some f
    else if 0 ≤ exponent then none
    else scale (f / tenTo 308) (exponent + 308) fuel

/-- Exponents from here on are not added up: the numeral is zero or out of range. -/
def exponentLimit : Nat := 0x80000000

/-- The absolute value of a numeral as a double. -/
def magnitude? (n : Numeral) : Option Float :=
  let g := n.gather
  let f := (UInt64.ofNat g.significand).toFloat
  match n.exponent with
  | none => scale f g.exponent (g.exponent.natAbs / 308 + 2)
  | some e =>
    let written := natOf e.digits
    if exponentLimit ≤ written then
      if g.significand ≠ 0 ∧ ¬e.negative then none else some 0
    else
      let total := if e.negative then g.exponent - written else g.exponent + written
      scale f total (total.natAbs / 308 + 2)

def toFloat? (n : Numeral) : Option Float :=
  n.magnitude?.map fun f => if n.negative then -f else f

def value? (n : Numeral) : Option Value :=
  let digits := natOf n.whole
  let whole := n.fraction.isNone && n.exponent.isNone
  if whole && !n.negative && digits < significandLimit then some (.integer digits)
  else if whole && n.negative && digits ≠ 0 && 2 * digits ≤ significandLimit then some (.integer (-digits))
  else n.toFloat?.map .float

end Blueprint.Numeral
