import Blueprint.Decimal.Numeral

/-!
# The double nearest to a numeral

A numeral stands for a whole number times a power of ten. It is rounded once to a double, and beyond
the doubles it is an infinity.
-/
namespace Blueprint.Numeral

/-- All digits of a numeral, without its point. -/
def significand (n : Numeral) : Nat :=
  natOf (n.whole ++ n.fraction.getD [])

def scaleExponent (n : Numeral) : Int :=
  let written : Int := match n.exponent with
    | some e => if e.negative then -natOf e.digits else natOf e.digits
    | none => 0
  written - (n.fraction.getD []).length

/-- A number with more digits than this before its point is beyond the doubles, and one with more zeros
than this after its point is rounded to zero. -/
def magnitudeLimit : Int := 400

def nearest (n : Numeral) : Float :=
  let digits := (Nat.toDigits 10 n.significand).length
  let magnitude := n.scaleExponent + digits
  let size : Float :=
    if n.significand = 0 ∨ magnitude < -magnitudeLimit then 0
    else if magnitudeLimit < magnitude then 1 / 0
    else Float.ofScientific n.significand (n.scaleExponent < 0) n.scaleExponent.natAbs
  if n.negative then -size else size

end Blueprint.Numeral
