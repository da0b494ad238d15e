import Blueprint.Record.Basic

/-!
# Class names as file names

The scripts of a project are files named for their classes, so the names must be fit for files and
differ from each other.
-/
namespace Blueprint

def isControl (c : Char) : Bool :=
  c.toNat < 0x20 || (0x7F ≤ c.toNat && c.toNat < 0xA0)

/-- A name that stays inside its folder: not empty, not made of dots alone, and without separators,
colons and control characters. -/
def isFileStem (name : String) : Bool :=
  let letters := name.toList
  !letters.isEmpty && !letters.all (· == '.') &&
    !letters.any fun c => c == '/' || c == '\\' || c == ':' || isControl c

inductive NameFault where
  | unusable (name : String)
  | repeated (name : String)
  deriving DecidableEq

def NameFault.message : NameFault → String
  | unusable name => s!"class name '{name}' cannot be used as a file name"
  | repeated name => s!"class '{name}' is defined more than once"

/-- The first fault of the names, when `seen` are those that come before. -/
def firstNameFault? (seen : List String) : List String → Option NameFault
  | [] => none
  | name :: rest =>
    if !isFileStem name then some (.unusable name)
    else if name ∈ seen then some (.repeated name)
    else firstNameFault? (name :: seen) rest

/-- All faults of the names, when `seen` are those that come before: one for each unusable name, and
one where a name stands for the second time. -/
def nameFaults (seen : List String) : List String → List NameFault
  | [] => []
  | name :: rest =>
    (if isFileStem name then [] else [.unusable name]) ++
      (if seen.count name = 1 then [.repeated name] else []) ++
      nameFaults (name :: seen) rest

end Blueprint
