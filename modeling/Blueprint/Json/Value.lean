import Blueprint.Decimal.Shortest
import Blueprint.Json.Quoted

/-!
# JSON values and their indented text

An object is a list of entries, so it keeps the order in which they are written. The indented text
puts every item and entry on a line of its own, two spaces further in than the value around it.
-/
namespace Blueprint

inductive Json where
  | null
  | bool (b : Bool)
  | number (n : Numeral)
  | text (s : String)
  | list (items : List Json)
  | object (entries : List (String × Json))

namespace Json

/-- The number, or `null` when it has no decimal form. -/
def ofFloat (f : Float) : Json :=
  ((Numeral.ofFloat? f).map number).getD null

def ofTexts (texts : List String) : Json :=
  list (texts.map text)

def get? (key : String) : Json → Option Json
  | object entries => entries.lookup key
  | _ => none

def newLine (depth : Nat) : List Char :=
  '\n' :: List.replicate (2 * depth) ' '

mutual

/-- The indented text of a value that stands at the given depth. -/
def pretty (depth : Nat) : Json → List Char
  | null => "null".toList
  | bool true => "true".toList
  | bool false => "false".toList
  | number n => n.text
  | text s => quote s.toList
  | list [] => "[]".toList
  | list (v :: rest) =>
    ['['] ++ newLine (depth + 1) ++ pretty (depth + 1) v ++ prettyItems (depth + 1) rest ++
      newLine depth ++ [']']
  | object [] => "\x7b\x7d".toList
  | object ((key, v) :: rest) =>
    ['\x7b'] ++ newLine (depth + 1) ++ quote key.toList ++ [':', ' '] ++ pretty (depth + 1) v ++
      prettyEntries (depth + 1) rest ++ newLine depth ++ ['\x7d']

def prettyItems (depth : Nat) : List Json → List Char
  | [] => []
  | v :: rest => [','] ++ newLine depth ++ pretty depth v ++ prettyItems depth rest

def prettyEntries (depth : Nat) : List (String × Json) → List Char
  | [] => []
  | (key, v) :: rest =>
    [','] ++ newLine depth ++ quote key.toList ++ [':', ' '] ++ pretty depth v ++
      prettyEntries depth rest

end

/-- The indented text of a value. -/
def render (v : Json) : String :=
  String.ofList (v.pretty 0)

end Json
end Blueprint
