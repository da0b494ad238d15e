import Blueprint.Tag

/-!
# Findings of a description

A header fault keeps a description from giving a record. A diagnostic tells of something that was
left out of the record and never keeps it from being made. Sections, rows and columns are counted
from zero.
-/
namespace Blueprint

/-- Why a description gives no record. -/
inductive HeaderFault where
  | missing
  | unnamed (index : Nat)
  | repeated (first index : Nat)
  deriving DecidableEq

def HeaderFault.message : HeaderFault → String
  | missing => "missing class header section (Cl')"
  | unnamed index => s!"class header in section {index} has an empty name"
  | repeated first index =>
    s!"duplicate class header in section {index} (first header in section {first})"

inductive Omission where
  /-- The section has no tag, only this label or text. -/
  | unknownSection (label : String)
  /-- The section has fewer columns than its tag needs. -/
  | shortSection (tag : Tag) (columns required : Nat)
  /-- The entry of the first column that names a row is empty. -/
  | emptyName (tag : Tag) (row : Nat)
  /-- The column has more entries than there are names. -/
  | surplusValues (tag : Tag) (column dropped : Nat)
  /-- The row lacks a value for which there is no substitute. -/
  | incompleteRow (tag : Tag) (row : Nat)
  deriving DecidableEq

/-- An omission and the position of its section. -/
structure Diagnostic where
  index : Nat
  omission : Omission
  deriving DecidableEq

def Omission.message : Omission → String
  | unknownSection label => s!"unknown section '{label}' ignored"
  | shortSection tag columns required =>
    let code := tag.code
    s!"'{code}' needs {required} columns, found {columns}; section ignored"
  | emptyName tag row =>
    let code := tag.code
    s!"'{code}' entry {row} has an empty name and was skipped"
  | surplusValues tag column dropped =>
    let code := tag.code
    s!"'{code}' column {column} has {dropped} more value(s) than names"
  | incompleteRow tag row =>
    let code := tag.code
    s!"'{code}' entry {row} is incomplete and was skipped"

def Diagnostic.message (d : Diagnostic) : String :=
  "section " ++ toString d.index ++ ": " ++ d.omission.message

end Blueprint
