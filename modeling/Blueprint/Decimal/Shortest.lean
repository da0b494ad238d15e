import Blueprint.Decimal.Numeral

/-!
# Shortest decimal text of a floating-point number

A double is `m * 2 ^ q` for whole numbers `m` and `q`, and the real numbers that round to it form an
interval around it, whose ends belong to it when `m` is even. Its shortest text takes the coarsest
decimal grid that has a point in the interval, and on that grid the point nearest to the number; of
two that are equally near, the form of the text decides. All of this is exact arithmetic on natural
numbers. The digits are laid out in two forms: with an exponent where the number is large or small,
or plainly.
-/
namespace Blueprint.Shortest

/-- A positive double and the interval that rounds to it, in units of a quarter of its last place. -/
structure Span where
  low : Nat
  value : Nat
  high : Nat
  /-- The binary exponent of the unit. -/
  unit : Int
  /-- The ends of the interval round to the double too. -/
  closed : Bool

/-- The weight of the leading digit of a mantissa, which is not stored. -/
def hiddenBit : Nat := 0x10000000000000

/-- The span of the double with a mantissa field and an exponent field. -/
def Span.ofFields (mantissa exponent : Nat) : Span :=
  let m := if exponent = 0 then mantissa else mantissa + hiddenBit
  let q : Int := (max exponent 1 : Nat) - 1075
  let lowGap := if mantissa = 0 ∧ 1 < exponent then 1 else 2
  ⟨4 * m - lowGap, 4 * m, 4 * m + 2, q - 2, m % 2 = 0⟩

/-- The factor for whole multiples of a power, and the divisor for negative ones. -/
def powerUp (base : Nat) (exponent : Int) : Nat :=
  Nat.pow base exponent.toNat

/-- The grid `10 ^ g` on a span: the bounds and the value over a common denominator, and the
denominator that one grid step amounts to. -/
structure Grid where
  low : Nat
  value : Nat
  high : Nat
  step : Nat

def Span.grid (s : Span) (g : Int) : Grid :=
  let scale := powerUp 2 s.unit * powerUp 10 (-g)
  ⟨s.low * scale, s.value * scale, s.high * scale, powerUp 2 (-s.unit) * powerUp 10 g⟩

/-- Whether `n` steps of the grid fall into the interval. -/
def Grid.holds (grid : Grid) (closed : Bool) (n : Nat) : Bool :=
  let point := n * grid.step
  (grid.low < point && point < grid.high) || (closed && (point == grid.low || point == grid.high))

/-- Which of two grid points is taken when the value lies halfway between them. -/
inductive Tie where
  | toEven
  | upward
  deriving DecidableEq

def Tie.goesDown (tie : Tie) (below : Nat) : Bool :=
  match tie with
  | .toEven => below % 2 == 0
  | .upward => false

/-- The grid point in the interval that is nearest to the value. -/
def Grid.nearest? (grid : Grid) (tie : Tie) (closed : Bool) : Option Nat :=
  let below := grid.value / grid.step
  let rest := grid.value % grid.step
  match grid.holds closed below, grid.holds closed (below + 1) with
  | true, true =>
    if 2 * rest < grid.step || (2 * rest == grid.step && tie.goesDown below) then some below
    else some (below + 1)
  | true, false => some below
  | false, true => some (below + 1)
  | false, false => none

def leadingExponent (num den : Nat) : Int :=
  if den ≤ num then ((Nat.toDigits 10 (num / den)).length : Int) - 1
  else -((Nat.toDigits 10 ((den + num - 1) / num - 1)).length : Int)

/-- The first grid from `g` downwards that has a point in the interval, as that point and the
exponent of the grid. -/
def Span.search (s : Span) (tie : Tie) : Nat → Int → Nat × Int
  | 0, g => ((s.grid g).value / (s.grid g).step, g)
  | tries + 1, g =>
    match (s.grid g).nearest? tie s.closed with
    | some n => (n, g)
    | none => s.search tie tries (g - 1)

/-- The significant digits of a positive double and the exponent of the first of them. -/
def digits (tie : Tie) (mantissa exponent : Nat) : List Char × Int :=
  let s := Span.ofFields mantissa exponent
  let unscaled := s.grid 0
  let (n, g) := s.search tie 17 (leadingExponent unscaled.value unscaled.step)
  let all := Nat.toDigits 10 n
  let kept := (all.reverse.dropWhile (· == '0')).reverse
  (kept, g + all.length - 1)

/-- The digits with the point behind the given place, which may lie before the first digit or after
the last one. -/
def layPlain (negative : Bool) (digits : List Char) (exponent : Int) : Numeral :=
  if 0 ≤ exponent then
    let places := exponent.toNat + 1
    let padded := digits ++ List.replicate (places - digits.length) '0'
    let fraction := padded.drop places
    { negative, whole := padded.take places, fraction := if fraction = [] then none else some fraction }
  else
    { negative, whole := ['0']
      fraction := some (List.replicate ((-exponent).toNat - 1) '0' ++ digits) }

/-- The digits laid out plainly for exponents from -5 to 15, with at least one decimal, and with an
exponent after one leading digit otherwise. -/
def layOut (negative : Bool) (digits : List Char) (exponent : Int) : Numeral :=
  if -5 ≤ exponent ∧ exponent < 16 then
    let plain := layPlain negative digits exponent
    { plain with fraction := some (plain.fraction.getD ['0']) }
  else
    { negative, whole := digits.take 1
      fraction := if digits.length ≤ 1 then none else some (digits.drop 1)
      exponent := some ⟨exponent < 0, Nat.toDigits 10 exponent.natAbs⟩ }

/-- The shortest digits of a number in a layout; there are none for an infinity and for a value that
is no number. -/
def numeral? (tie : Tie) (layout : Bool → List Char → Int → Numeral) (f : Float) : Option Numeral :=
  let bits := f.toBits.toNat
  let mantissa := bits % hiddenBit
  let exponent := bits / hiddenBit % 2048
  let negative := bits / hiddenBit / 2048 == 1
  if exponent = 2047 then none
  else if mantissa = 0 ∧ exponent = 0 then some (layout negative ['0'] 0)
  else
    let (digits, first) := digits tie mantissa exponent
    some (layout negative digits first)

end Blueprint.Shortest

namespace Blueprint.Numeral

/-- The shortest numeral that reads back as the number, with an exponent where the number is large or
small; there is none for an infinity and for a value that is no number. -/
def ofFloat? (f : Float) : Option Numeral :=
  Shortest.numeral? .toEven Shortest.layOut f

/-- The plain text of a number: its shortest digits without an exponent, and words for the values
that have no digits. -/
def plainText (f : Float) : String :=
  match Shortest.numeral? .upward Shortest.layPlain f with
  | some n => String.ofList n.text
  | none => if f.isNaN then "NaN" else if f < 0 then "-inf" else "inf"

end Blueprint.Numeral
