import Blueprint.Decimal.Nearest
import Blueprint.Text.Hex

/-!
# TOML numbers

Integers are decimal, with a sign perhaps, or hexadecimal, octal or binary. Floats have a fraction or
an exponent, or are one of the words for infinity and for a value that is no number. Single marks may
stand between digits.
-/
namespace Blueprint.Toml

/-- The digits of a number without the marks between them; a mark needs a digit on either side. -/
def ungroup (isDigit : Char → Bool) : List Char → Option (List Char)
  | [] => none
  | [c] => if isDigit c then some [c] else none
  | c :: '_' :: d :: rest =>
    if isDigit c then (ungroup isDigit (d :: rest)).map (c :: ·) else none
  | c :: d :: rest => if isDigit c then (ungroup isDigit (d :: rest)).map (c :: ·) else none

def inBase (base : Nat) (digits : List Char) : Option Nat := do
  let digits ← ungroup (fun c => (Text.hexValue? c).any (· < base)) digits
  digits.foldlM (fun n c => (Text.hexValue? c).map (n * base + ·)) 0

def decimal (digits : List Char) : Option Nat :=
  match digits with
  | '0' :: _ :: _ => none
  | digits => inBase 10 digits

def fitting (n : Int) : Option Int :=
  if Numeral.fitsWord n then some n else none

/-- The integer that a word stands for. -/
def integerOf? : List Char → Option Int
  | '0' :: 'x' :: digits => (inBase 16 digits).bind fun n => fitting n
  | '0' :: 'o' :: digits => (inBase 8 digits).bind fun n => fitting n
  | '0' :: 'b' :: digits => (inBase 2 digits).bind fun n => fitting n
  | '-' :: digits => (decimal digits).bind fun n => fitting (-n)
  | '+' :: digits => (decimal digits).bind fun n => fitting n
  | digits => (decimal digits).bind fun n => fitting n

/-- The digits that a float's part is made of, without the marks between them. -/
def floatDigits? (s : List Char) : Option (List Char) :=
  ungroup Char.isDigit s

def isGrouped (c : Char) : Bool :=
  c.isDigit || c == '_'

/-- The digits in front of the point: a zero stands alone. -/
def takeFloatWhole? (s : List Char) : Option (List Char × List Char) :=
  match s.takeWhile isGrouped with
  | '0' :: _ :: _ => none
  | part => (floatDigits? part).map fun digits => (digits, s.dropWhile isGrouped)

/-- A point must have digits after it. -/
def takeFloatFraction? : List Char → Option (Option (List Char) × List Char)
  | '.' :: rest =>
    (floatDigits? (rest.takeWhile isGrouped)).map fun digits =>
      (some digits, rest.dropWhile isGrouped)
  | s => some (none, s)

/-- An exponent letter may have a sign and must have digits after it. -/
def takeFloatExponent? : List Char → Option (Option Exponent × List Char)
  | 'e' :: rest | 'E' :: rest =>
    let (negative, rest) := match rest with
      | '-' :: rest => (true, rest)
      | '+' :: rest => (false, rest)
      | rest => (false, rest)
    (floatDigits? (rest.takeWhile isGrouped)).map fun digits =>
      (some ⟨negative, digits⟩, rest.dropWhile isGrouped)
  | s => some (none, s)

/-- The numeral of a float behind its sign. It has a fraction or an exponent. -/
def takeFloatNumeral? (negative : Bool) (s : List Char) : Option (Numeral × List Char) := do
  let (whole, s) ← takeFloatWhole? s
  let (fraction, s) ← takeFloatFraction? s
  let (exponent, s) ← takeFloatExponent? s
  if fraction.isNone && exponent.isNone then none
  else some (⟨negative, whole, fraction, exponent⟩, s)

/-- A float behind its sign. Digits that stand for more than the largest double are refused, unless
they are negative. -/
def takeUnsignedFloat? (negative : Bool) : List Char → Option (Float × List Char)
  | 'i' :: 'n' :: 'f' :: rest => some (if negative then -(1 / 0) else 1 / 0, rest)
  | 'n' :: 'a' :: 'n' :: rest => some (0 / 0, rest)
  | s =>
    match takeFloatNumeral? negative s with
    | none => none
    | some (n, rest) =>
      let f := n.nearest
      if f.isInf && !negative then none else some (f, rest)

/-- The float that a text starts with. -/
def takeFloat? : List Char → Option (Float × List Char)
  | '-' :: rest => takeUnsignedFloat? true rest
  | '+' :: rest => takeUnsignedFloat? false rest
  | s => takeUnsignedFloat? false s

end Blueprint.Toml
