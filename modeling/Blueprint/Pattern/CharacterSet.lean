import Blueprint.Pattern.Escape

/-!
# Sets of characters in patterns

A set stands between brackets. Its members are characters, ranges of them, classes and sets, and an
operator cuts the members so far with those that follow. The depth of a set counts the sets, lists
of members and operators that it is nested in.
-/
namespace Blueprint.Pattern

/-- The depth of parts side by side. A part that stands alone adds nothing. -/
def depthOf : List Nat → Nat
  | [] => 0
  | [depth] => depth
  | depths => 1 + depths.foldl max 0

namespace CharacterSet

def classNames : List String :=
  ["alnum", "alpha", "ascii", "blank", "cntrl", "digit", "graph", "lower", "print", "punct",
    "space", "upper", "word", "xdigit"]

/-- A named class between colons, behind its opening bracket, and whether it is negated. -/
def takeClass? : List Char → Option (Bool × List Char)
  | ':' :: rest =>
    let (negated, rest) := match rest with
      | '^' :: rest => (true, rest)
      | rest => (false, rest)
    if classNames.contains (String.ofList (rest.takeWhile (· != ':'))) then
      match rest.dropWhile (· != ':') with
      | ':' :: ']' :: rest => some (negated, rest)
      | _ => none
    else none
  | _ => none

def isClassUsable (mode : Mode) (negated : Bool) : Bool :=
  if mode.unicode then !mode.anyCase else !negated

/-- What follows a member that is no set: an atom, or a range from one character to another. A dash
begins no range before another dash or a closing bracket. -/
def skipMember? (mode : Mode) (s : List Char) : Option (List Char) := do
  let (first, rest) ← Atom.takeMember? mode s
  match first.isMember mode, mode.skip rest with
  | false, _ => none
  | true, '-' :: after =>
    if mode.ahead? after = some ']' ∨ mode.ahead? after = some '-' then some ('-' :: after)
    else
      match first, ← Atom.takeMember? mode (mode.skip after) with
      | .literal c _, (.literal d ofByte, rest) =>
        if (Atom.literal d ofByte).isMember mode ∧ c ≤ d then some rest else none
      | _, _ => none
  | true, rest => some rest

/-- What follows the opening bracket and the sign that negates the set. The complement of a set of
bytes is no set of characters. -/
def enter? (mode : Mode) (s : List Char) : Option (List Char) :=
  match mode.skip s with
  | '^' :: rest => if mode.unicode then some rest else none
  | rest => some rest

/-- The signs that make an operator when they stand twice. -/
def isOperator (c : Char) : Bool :=
  c == '&' || c == '-' || c == '~'

/-- Reads members up to the closing bracket, after those on the left of an operator and after some
members of the given depths. Dashes in front, and then a bracket, stand for themselves. -/
def takeMembers? (mode : Mode) :
    Nat → Bool → List Nat → List Nat → List Char → Option (Nat × List Char)
  | 0, _, _, _, _ => none
  | fuel + 1, inFront, left, members, s =>
    match mode.skip s with
    | [] => none
    | c :: rest =>
      if inFront && (c == '-' || (c == ']' && members == [])) then
        if (Atom.literal c false).isMember mode then
          takeMembers? mode fuel (c == '-') left (0 :: members) rest
        else none
      else if c = ']' then some (1 + depthOf (depthOf members :: left), rest)
      else if c = '[' then
        match takeClass? rest with
        | some (negated, rest) =>
          if isClassUsable mode negated then takeMembers? mode fuel false left (0 :: members) rest
          else none
        | none => do
          let (depth, rest) ← takeMembers? mode fuel true [] [] (← enter? mode rest)
          takeMembers? mode fuel false left (depth :: members) rest
      else if isOperator c && rest.head? == some c then
        takeMembers? mode fuel false [depthOf (depthOf members :: left)] [] rest.tail
      else do
        takeMembers? mode fuel false left (0 :: members) (← skipMember? mode (c :: rest))

/-- The depth of the set behind an opening bracket. -/
def take? (mode : Mode) (s : List Char) : Option (Nat × List Char) := do
  takeMembers? mode (s.length + 1) true [] [] (← enter? mode s)

end CharacterSet
end Blueprint.Pattern
