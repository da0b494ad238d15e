import Blueprint.Pattern.Mode
import Blueprint.Text.Hex

/-!
# Escapes in patterns

A backslash takes its meaning from a sign, and gives a meaning to a letter. No tables of characters
are at hand: a class of characters has no members beyond ASCII, so it cannot be used where
characters count, nor its complement where bytes do. A letter has no other case beyond ASCII either.
-/
namespace Blueprint.Pattern

/-- What a character or an escape stands for. -/
inductive Atom where
  /-- A character. It may be given as the value of a byte. -/
  | literal (c : Char) (ofByte : Bool)
  | anyCharacter
  /-- The digits, the blanks or the characters of words, or what is none of them. -/
  | shorthand (negated : Bool)
  /-- The start or the end of a line or of the text. -/
  | border
  | wordBorder
  deriving DecidableEq

namespace Atom

def control? : Char → Option Char
  | 'a' => some '\x07'
  | 'f' => some '\x0c'
  | 't' => some '\t'
  | 'n' => some '\n'
  | 'r' => some '\r'
  | 'v' => some '\x0b'
  | _ => none

/-- The signs that stand for themselves behind a backslash. -/
def isSign (c : Char) : Bool :=
  c.toNat < 0x80 && !c.isAlphanum

def takeHex? (mode : Mode) : Nat → List Char → Option (List Char × List Char)
  | 0, s => some ([], s)
  | n + 1, s =>
    match mode.skip s with
    | [] => none
    | c :: rest =>
      if (Text.hexValue? c).isSome then
        (takeHex? mode n rest).map fun (digits, rest) => (c :: digits, rest)
      else none

def takeCode? (mode : Mode) (width : Nat) (s : List Char) : Option (Char × List Char) := do
  let (digits, rest) ← takeHex? mode width s
  let n ← Text.hexNumber? digits
  if n.isValidChar then some (Char.ofNat n, rest) else none

def takeEscape? (mode : Mode) : List Char → Option (Atom × List Char)
  | [] => none
  | 'x' :: rest => (takeCode? mode 2 rest).map fun (c, rest) => (literal c true, rest)
  | 'u' :: rest => (takeCode? mode 4 rest).map fun (c, rest) => (literal c false, rest)
  | 'U' :: rest => (takeCode? mode 8 rest).map fun (c, rest) => (literal c false, rest)
  | 'd' :: rest | 's' :: rest | 'w' :: rest => some (shorthand false, rest)
  | 'D' :: rest | 'S' :: rest | 'W' :: rest => some (shorthand true, rest)
  | 'A' :: rest | 'z' :: rest => some (border, rest)
  | 'b' :: rest | 'B' :: rest | '<' :: rest | '>' :: rest => some (wordBorder, rest)
  | c :: rest =>
    if isSign c then some (literal c false, rest)
    else (control? c).map fun c => (literal c false, rest)

/-- The atom that a text starts with, outside of sets. -/
def take? (mode : Mode) : List Char → Option (Atom × List Char)
  | [] => none
  | '\\' :: rest => takeEscape? mode rest
  | '.' :: rest => some (anyCharacter, rest)
  | '^' :: rest | '$' :: rest => some (border, rest)
  | c :: rest => some (literal c false, rest)

/-- The atom that a text starts with, inside of sets. -/
def takeMember? (mode : Mode) : List Char → Option (Atom × List Char)
  | [] => none
  | '\\' :: rest => takeEscape? mode rest
  | c :: rest => some (literal c false, rest)

/-- Whether an atom can be used outside of sets. What matches must be text, not loose bytes. -/
def isUsable (mode : Mode) : Atom → Bool
  | literal c ofByte => if mode.unicode then !mode.anyCase else !ofByte || c.toNat < 0x80
  | anyCharacter => mode.unicode
  | shorthand negated => !mode.unicode && !negated
  | border => true
  | wordBorder => !mode.unicode

def isMember (mode : Mode) : Atom → Bool
  | literal c _ => if mode.unicode then !mode.anyCase else c.toNat < 0x80
  | shorthand negated => !mode.unicode && !negated
  | anyCharacter | border | wordBorder => false

end Atom
end Blueprint.Pattern
