import Blueprint.Text.Hex

/-!
# Quoted JSON texts

Writing a text between quotes escapes the quote, the backslash and the control characters below
U+0020, and nothing else. Reading knows all escapes of the format. An escape can name half of a
surrogate pair; a quoted text with a half that is not part of a pair is well formed but stands for no
text.
-/
namespace Blueprint.Json

/-- A character as it stands between quotes. -/
def escape (c : Char) : List Char :=
  if c = '"' then ['\\', '"']
  else if c = '\\' then ['\\', '\\']
  else if 0x20 ≤ c.toNat then [c]
  else if c.toNat = 0x08 then ['\\', 'b']
  else if c = '\t' then ['\\', 't']
  else if c = '\n' then ['\\', 'n']
  else if c.toNat = 0x0C then ['\\', 'f']
  else if c = '\r' then ['\\', 'r']
  else ['\\', 'u', '0', '0', Text.hexDigit (c.toNat / 16), Text.hexDigit (c.toNat % 16)]

/-- A text between quotes. -/
def quote (text : List Char) : List Char :=
  ['"'] ++ text.flatMap escape ++ ['"']

def shortEscape? : Char → Option Char
  | '"' => some '"'
  | '\\' => some '\\'
  | '/' => some '/'
  | 'b' => some (Char.ofNat 0x08)
  | 'f' => some (Char.ofNat 0x0C)
  | 'n' => some '\n'
  | 'r' => some '\r'
  | 't' => some '\t'
  | _ => none

/-- What a quoted text is made of: characters, and surrogates that escapes name. -/
inductive Unit16 where
  | char (c : Char)
  | surrogate (n : Nat)
  deriving DecidableEq

/-- What an escape with four digits names. -/
def Unit16.ofWord (n : Nat) : Unit16 :=
  if 0xD800 ≤ n ∧ n < 0xE000 then surrogate n else char (Char.ofNat n)

/-- Reads up to the closing quote: the units between the quotes and what follows the quote. There is
no answer when the quote is missing, an escape is malformed or a control character stands bare. -/
def takeUnits? : List Char → Option (List Unit16 × List Char)
  | [] => none
  | '"' :: rest => some ([], rest)
  | '\\' :: 'u' :: a :: b :: c :: d :: rest => do
    let n ← Text.hexNumber? [a, b, c, d]
    let (units, rest) ← takeUnits? rest
    return (Unit16.ofWord n :: units, rest)
  | '\\' :: e :: rest => do
    let c ← shortEscape? e
    let (units, rest) ← takeUnits? rest
    return (Unit16.char c :: units, rest)
  | c :: rest => do
    if c = '\\' ∨ c.toNat < 0x20 then none
    else
      let (units, rest) ← takeUnits? rest
      return (Unit16.char c :: units, rest)

def pairChar (high low : Nat) : Char :=
  Char.ofNat (0x10000 + (high - 0xD800) * 0x400 + (low - 0xDC00))

/-- The text of the units, when each surrogate is part of a pair. -/
def textOfUnits? : List Unit16 → Option (List Char)
  | [] => some []
  | .char c :: rest => (textOfUnits? rest).map (c :: ·)
  | .surrogate high :: .surrogate low :: rest =>
    if high < 0xDC00 ∧ 0xDC00 ≤ low then (textOfUnits? rest).map (pairChar high low :: ·) else none
  | .surrogate _ :: _ => none

end Blueprint.Json
