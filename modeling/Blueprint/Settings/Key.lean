import Blueprint.Settings.Tree

/-!
# Dotted setting keys

A dotted key is a name followed by further names after dots and by indices in brackets. Names are
made of ASCII letters, digits, underscores, hyphens and spaces. Blanks may stand around an index,
which must fit into 64 bits.
-/
namespace Blueprint

/-- The steps that a key leads through, the first of which is a name. -/
abbrev SettingKey := List SettingTree.Step

namespace SettingKey

def isNameChar (c : Char) : Bool :=
  c.isAlphanum || c == '_' || c == '-' || c == ' '

def takeName? (s : List Char) : Option (SettingTree.Step × List Char) :=
  match s.takeWhile isNameChar with
  | [] => none
  | name => some (.key (String.ofList name), s.dropWhile isNameChar)

def takeIndex? (s : List Char) : Option (SettingTree.Step × List Char) := do
  let (negative, s) := match Toml.skipSpace s with
    | '-' :: rest => (true, rest)
    | s => (false, s)
  let (digits, s) ← Numeral.takeDigits? s
  let n : Int := if negative then -Numeral.natOf digits else Numeral.natOf digits
  match Toml.skipSpace s with
  | ']' :: rest => if Numeral.fitsWord n then some (.index n, rest) else none
  | _ => none

/-- The steps after the first name. Each step takes one unit of fuel. -/
def takeSteps? : Nat → List Char → Option (List SettingTree.Step)
  | _, [] => some []
  | 0, _ => none
  | fuel + 1, '.' :: s => do
    let (step, rest) ← takeName? s
    return step :: (← takeSteps? fuel rest)
  | fuel + 1, '[' :: s => do
    let (step, rest) ← takeIndex? s
    return step :: (← takeSteps? fuel rest)
  | _ + 1, _ => none

/-- The key that a text spells. -/
def ofText? (text : String) : Option SettingKey := do
  let (first, rest) ← takeName? text.toList
  return first :: (← takeSteps? rest.length rest)

end SettingKey
end Blueprint
