import Blueprint.Text.Blank

/-!
# Modes of a pattern

A pattern is read in a mode, and flags change the mode for what follows them or for one group. Only
the flags that bear on whether a pattern can be used are kept.
-/
namespace Blueprint.Pattern

structure Mode where
  /-- Characters count, not their bytes. -/
  unicode : Bool := true
  /-- Letters match in either case. -/
  anyCase : Bool := false
  /-- Blanks and comments do not count. -/
  spaced : Bool := false
  deriving DecidableEq

namespace Mode

def flagLetters : List Char :=
  ['i', 'm', 's', 'U', 'u', 'x', 'R']

/-- The flags before a colon or a closing parenthesis. A minus sign turns off those behind it, so
one must follow, and nothing stands twice. -/
def takeFlags? (s : List Char) : Option (List Char × List Char) :=
  let isFlag c := c != ':' && c != ')'
  let flags := s.takeWhile isFlag
  let rest := s.dropWhile isFlag
  if rest ≠ [] ∧ flags.all (('-' :: flagLetters).contains ·) ∧ flags.Nodup ∧
    flags.getLast? ≠ some '-' then some (flags, rest)
  else none

/-- What flags make of the setting that a letter stands for. -/
def setting (flags : List Char) (letter : Char) (before : Bool) : Bool :=
  if (flags.takeWhile (· != '-')).contains letter then true
  else if flags.contains letter then false
  else before

def withFlags (mode : Mode) (flags : List Char) : Mode where
  unicode := setting flags 'u' mode.unicode
  anyCase := setting flags 'i' mode.anyCase
  spaced := setting flags 'x' mode.spaced

/-- What follows blanks and comments. A comment goes from its sign to the end of the line. -/
def skipComments (inComment : Bool) : List Char → List Char
  | [] => []
  | c :: rest =>
    if inComment then skipComments (c != '\n') rest
    else if Text.isBlank c then skipComments false rest
    else if c = '#' then skipComments true rest
    else c :: rest

/-- What follows blanks and comments, where they do not count. -/
def skip (mode : Mode) (s : List Char) : List Char :=
  if mode.spaced then skipComments false s else s

/-- The next character. Where they do not count, blanks are passed over, but of a comment no more
than its sign; when nothing else is left, the first of them is the next character. -/
def ahead? (mode : Mode) (s : List Char) : Option Char :=
  if mode.spaced then
    match s.dropWhile Text.isBlank with
    | '#' :: rest => (rest.dropWhile Text.isBlank).head?.or s.head?
    | rest => rest.head?.or s.head?
  else s.head?

end Mode
end Blueprint.Pattern
