import Blueprint.Pattern.CharacterSet
import Blueprint.Text.Alphanumeric

/-!
# Patterns

A pattern is a regular expression. Here it is only read, to tell whether it could be used: branches
between bars, groups, sets and atoms, each perhaps repeated. Its depth has a limit. Patterns stand
in braces themselves, so a repetition that is counted in braces can never be closed.
-/
namespace Blueprint.Pattern

def depthLimit : Nat := 250

def startsName (c : Char) : Bool :=
  c == '_' || Text.isAlphabetic c

def isNamePart (c : Char) : Bool :=
  c == '_' || c == '.' || c == '[' || c == ']' || Text.isAlphanumeric c

def takeName? (s : List Char) : Option (List Char × List Char) :=
  match s.takeWhile (· != '>'), s.dropWhile (· != '>') with
  | first :: others, _ :: rest =>
    if startsName first ∧ others.all isNamePart then some (first :: others, rest) else none
  | _, _ => none

/-- What an opening parenthesis begins. -/
inductive Opening where
  /-- A group, read in a mode of its own. -/
  | group (mode : Mode)
  | namedGroup (name : List Char)
  /-- Flags for what follows. -/
  | flags (mode : Mode)
  deriving DecidableEq

/-- Reads what stands behind an opening parenthesis. -/
def takeOpening? (mode : Mode) : List Char → Option (Opening × List Char)
  | '?' :: 'P' :: '<' :: rest | '?' :: '<' :: rest =>
    (takeName? rest).map fun (name, rest) => (.namedGroup name, rest)
  | '?' :: rest =>
    match Mode.takeFlags? rest with
    | some (flags, ':' :: rest) => some (.group (mode.withFlags flags), rest)
    | some (flags, _ :: rest) =>
      if flags = [] then none else some (.flags (mode.withFlags flags), rest)
    | _ => none
  | rest => some (.group mode, rest)

/-- What follows the sign that makes a repetition short. -/
def skipShort : List Char → List Char
  | '?' :: rest => rest
  | rest => rest

/-- The depth of parts, of which flags are none. -/
def partsDepth (parts : List (Option Nat)) : Nat :=
  depthOf (parts.map (·.getD 0))

/-- Reads branches up to a closing parenthesis or the end, after branches of the given depths and
after parts of a branch, the last one first. The names of groups are collected, and none is used
twice. -/
def takeBranches? : Nat → Mode → List (List Char) → List Nat → List (Option Nat) → List Char →
    Option (Nat × List (List Char) × List Char)
  | 0, _, _, _, _, _ => none
  | fuel + 1, mode, names, branches, parts, s =>
    match mode.skip s with
    | [] => some (depthOf (partsDepth parts :: branches), names, [])
    | ')' :: rest => some (depthOf (partsDepth parts :: branches), names, ')' :: rest)
    | '|' :: rest => takeBranches? fuel mode names (partsDepth parts :: branches) [] rest
    | '(' :: rest => do
      let takeGroup (inner : Mode) (names : List (List Char)) (rest : List Char) := do
        let (depth, names, rest) ← takeBranches? fuel inner names [] [] rest
        match rest with
        | ')' :: rest => takeBranches? fuel mode names branches (some (depth + 1) :: parts) rest
        | _ => none
      match ← takeOpening? mode (mode.skip rest) with
      | (.group inner, rest) => takeGroup inner names rest
      | (.namedGroup name, rest) =>
        if names.contains name then none else takeGroup mode (name :: names) rest
      | (.flags mode, rest) => takeBranches? fuel mode names branches (none :: parts) rest
    | '[' :: rest => do
      let (depth, rest) ← CharacterSet.take? mode rest
      takeBranches? fuel mode names branches (some depth :: parts) rest
    | '?' :: rest | '*' :: rest | '+' :: rest =>
      match parts with
      | some depth :: parts =>
        takeBranches? fuel mode names branches (some (depth + 1) :: parts) (skipShort rest)
      | _ => none
    | '\x7b' :: _ => none
    | s => do
      let (atom, rest) ← Atom.take? mode s
      if atom.isUsable mode then takeBranches? fuel mode names branches (some 0 :: parts) rest
      else none

/-- Whether a text is a pattern that can be used. -/
def isValid (s : List Char) : Bool :=
  match takeBranches? (s.length + 1) {} [] [] [] s with
  | some (depth, _, []) => depth ≤ depthLimit
  | _ => false

end Blueprint.Pattern
