import Blueprint.Decimal.Shortest
import Blueprint.Toml.Document

/-!
# Setting trees

All layers of settings are merged into one tree. A scalar is kept as its text. Merging a table goes
leaf by leaf, so that a table without entries changes nothing in a table that is there; a scalar or
a list takes the place of what was there. Keys are compared without regard to case.
-/
namespace Blueprint

inductive SettingTree where
  /-- A place in a list that nothing has been put into. -/
  | empty
  | scalar (text : String)
  | list (items : List SettingTree)
  | table (entries : List (String × SettingTree))

namespace SettingTree

/-- The tree of a table, when its entries have those trees. A table that stands for a date or time
is a scalar, and its other entries do not count. -/
def ofTable? (t : Toml.Table) (trees : Option (List (String × SettingTree))) :
    Option SettingTree :=
  match t.dateTimeEntry? with
  | none => trees.map table
  | some (.text s) => (Toml.DateTime.ofText? s).map fun d => scalar d.text
  | some _ => none

mutual

/-- The tree of a TOML value, unless a table in it fails to spell the date or time that it stands
for. -/
def ofToml? : Toml → Option SettingTree
  | .text s => some (scalar s)
  | .integer n => some (scalar (toString n))
  | .float f => some (scalar (Numeral.plainText f))
  | .bool b => some (scalar (if b then "true" else "false"))
  | .dateTime t => some (scalar t.text)
  | .list items => (ofItems? items).map list
  | .table _ entries => ofTable? entries (ofEntries? entries)
  | .tables earlier last => do
    let trees ← ofItems? earlier
    let tree ← ofTable? last (ofEntries? last)
    return list (trees ++ [tree])

def ofItems? : List Toml → Option (List SettingTree)
  | [] => some []
  | v :: rest => do return (← ofToml? v) :: (← ofItems? rest)

def ofEntries? : List (String × Toml) → Option (List (String × SettingTree))
  | [] => some []
  | (key, v) :: rest => do return (key, ← ofToml? v) :: (← ofEntries? rest)

end

/-- The entries of a table; anything else has none. -/
def entries : SettingTree → List (String × SettingTree)
  | table entries => entries
  | _ => []

/-- The form in which keys are compared. -/
def foldKey (key : String) : String :=
  String.ofList (key.toList.map Char.toLower)

def get? (tree : SettingTree) (key : String) : Option SettingTree :=
  tree.entries.lookup key

/-- The tree, made a table if it is none, with the entry of a key replaced. -/
def put (tree : SettingTree) (key : String) (v : SettingTree) : SettingTree :=
  if (tree.get? key).isSome then
    table (tree.entries.map fun entry => if entry.1 = key then (key, v) else entry)
  else table (tree.entries ++ [(key, v)])

mutual

/-- Merges a value into the entry of a key. -/
def merge (tree : SettingTree) (key : String) : SettingTree → SettingTree
  | table entries =>
    tree.put (foldKey key) (mergeEntries ((tree.get? (foldKey key)).getD (table [])) entries)
  | v => tree.put (foldKey key) v

def mergeEntries (tree : SettingTree) : List (String × SettingTree) → SettingTree
  | [] => tree
  | (key, v) :: rest => mergeEntries (merge tree key v) rest

end

/-- The items of a list; anything else has none. -/
def items : SettingTree → List SettingTree
  | list items => items
  | _ => []

/-- One step of a path into a tree. A negative index counts from the end of a list. -/
inductive Step where
  | key (name : String)
  | index (i : Int)
  deriving DecidableEq

/-- A list is made long enough for any index, as long as it fits into memory. This length stands for
the first that does not: some ten gigabytes of places that nothing has been put into. -/
def placeLimit : Nat := 0x8000000

/-- The place of an index in a list of the given length. There is none in front of the list, nor so
far behind it that no list could be that long. -/
def place? (length : Nat) (i : Int) : Option Nat :=
  let target := if i < 0 then length + i else i
  if 0 ≤ target ∧ target < placeLimit then some target.toNat else none

/-- The list, made long enough for a place, with the item there replaced. -/
def setItem (items : List SettingTree) (place : Nat) (v : SettingTree) : SettingTree :=
  list ((items ++ List.replicate (place + 1 - items.length) empty).set place v)

/-- Merges a value at a path. A place that is no table or list is made one where the path asks for
it; an index may lead to no place at all. -/
def mergeAt? (v : SettingTree) : List Step → SettingTree → Option SettingTree
  | [], _ => some v
  | [.key name], tree => some (merge (table tree.entries) name v)
  | .key name :: path, tree => do
    let inner ← mergeAt? v path ((tree.get? (foldKey name)).getD empty)
    return (table tree.entries).put (foldKey name) inner
  | .index i :: path, tree => do
    let target ← place? tree.items.length i
    let inner ← mergeAt? v path (tree.items.getD target empty)
    return setItem tree.items target inner

end SettingTree
end Blueprint
