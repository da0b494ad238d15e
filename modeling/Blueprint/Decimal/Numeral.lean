/-!
# Decimal numerals

A numeral is a number as it is written: a sign, digits, perhaps a fraction and perhaps an exponent.
-/
namespace Blueprint

structure Exponent where
  negative : Bool
  digits : List Char
  deriving DecidableEq

structure Numeral where
  negative : Bool := false
  whole : List Char
  fraction : Option (List Char) := none
  exponent : Option Exponent := none
  deriving DecidableEq

namespace Numeral

/-- The value of a digit; any other character counts as its distance from zero. -/
def digitValue (c : Char) : Nat :=
  c.toNat - '0'.toNat

/-- The number that digits stand for. -/
def natOf (digits : List Char) : Nat :=
  digits.foldl (fun n c => n * 10 + digitValue c) 0

/-- Whether a number fits into a signed word of 64 bits. -/
def fitsWord (n : Int) : Bool :=
  -0x8000000000000000 ≤ n && n < 0x8000000000000000

def ofInt (n : Int) : Numeral :=
  { negative := n < 0, whole := Nat.toDigits 10 n.natAbs }

/-- The text of a numeral. The exponent always has a sign. -/
def text (n : Numeral) : List Char :=
  (if n.negative then ['-'] else []) ++ n.whole ++
    (match n.fraction with
      | some digits => '.' :: digits
      | none => []) ++
    match n.exponent with
    | some e => 'e' :: (if e.negative then '-' else '+') :: e.digits
    | none => []

/-- The digits a text starts with, when there is one, and what follows them. -/
def takeDigits? (s : List Char) : Option (List Char × List Char) :=
  match s.takeWhile Char.isDigit with
  | [] => none
  | digits => some (digits, s.dropWhile Char.isDigit)

/-- The whole part: a zero stands alone. -/
def takeWhole? (s : List Char) : Option (List Char × List Char) :=
  match takeDigits? s with
  | some ('0' :: _ :: _, _) => none
  | found => found

/-- A point must have digits after it. -/
def takeFraction? : List Char → Option (Option (List Char) × List Char)
  | '.' :: rest => (takeDigits? rest).map fun (digits, rest) => (some digits, rest)
  | s => some (none, s)

/-- An exponent letter may have a sign and must have digits after it. -/
def takeExponent? : List Char → Option (Option Exponent × List Char)
  | c :: rest =>
    if c = 'e' ∨ c = 'E' then
      let (negative, rest) := match rest with
        | '-' :: rest => (true, rest)
        | '+' :: rest => (false, rest)
        | rest => (false, rest)
      (takeDigits? rest).map fun (digits, rest) => (some ⟨negative, digits⟩, rest)
    else some (none, c :: rest)
  | [] => some (none, [])

/-- The numeral a text starts with and what follows it; `none` when the numeral is malformed. -/
def read? (s : List Char) : Option (Numeral × List Char) := do
  let (negative, s) := match s with
    | '-' :: rest => (true, rest)
    | rest => (false, rest)
  let (whole, s) ← takeWhole? s
  let (fraction, s) ← takeFraction? s
  let (exponent, s) ← takeExponent? s
  return (⟨negative, whole, fraction, exponent⟩, s)

end Numeral
end Blueprint
