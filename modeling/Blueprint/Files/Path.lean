import Std.Data.TreeMap
import Blueprint.Text.Pieces

/-!
# File paths

Two spellings name the same path when they have the same parts: repeated separators and dots between
them do not count, while a dot at the front does. Paths are ordered part by part, with the root
before a dot, a dot before a step up and that before any name.
-/
namespace Blueprint

inductive PathPart where
  | root
  | here
  | up
  | name (n : String)
  deriving DecidableEq

namespace PathPart

def rank : PathPart → Nat
  | root => 0
  | here => 1
  | up => 2
  | name _ => 3

def text : PathPart → String
  | root => "/"
  | here => "."
  | up => ".."
  | name n => n

instance : Ord PathPart :=
  ⟨compareLex (compareOn rank) (compareOn text)⟩

instance : Std.TransOrd PathPart :=
  inferInstanceAs (Std.TransCmp (compareLex (compareOn rank) (compareOn text)))

theorem eq_of_rank_text : ∀ {p q : PathPart}, p.rank = q.rank → p.text = q.text → p = q
  | root, root, _, _ | here, here, _, _ | up, up, _, _ => rfl
  | name _, name _, _, h => congrArg name h

theorem eq_of_compare_eq {p q : PathPart} (h : compare p q = .eq) : p = q := by
  have h : (compareOn rank p q).then (compareOn text p q) = .eq := h
  rw [Ordering.then_eq_eq] at h
  exact eq_of_rank_text (Std.LawfulEqOrd.eq_of_compare h.1) (Std.LawfulEqOrd.eq_of_compare h.2)

instance : Std.LawfulEqOrd PathPart where
  eq_of_compare := eq_of_compare_eq

end PathPart

/-- A path as its parts. -/
abbrev Path := List PathPart

namespace Path

/-- The part that a text between separators stands for, if any. -/
def part? (first : Bool) (text : List Char) : Option PathPart :=
  if text = [] then none
  else if text = ['.'] then if first then some .here else none
  else if text = ['.', '.'] then some .up
  else some (.name (String.ofList text))

/-- The parts of a spelling. -/
def ofText (spelling : String) : Path :=
  match Text.pieces (· == '/') spelling.toList with
  | [] => []
  | [] :: rest => (if rest.isEmpty then [] else [.root]) ++ rest.filterMap (part? false)
  | first :: rest => (part? true first).toList ++ rest.filterMap (part? false)

def text : Path → String
  | .root :: rest => "/" ++ "/".intercalate (rest.map PathPart.text)
  | parts => "/".intercalate (parts.map PathPart.text)

/-- The path with an ending put after the name that it ends with, if it ends with a name. -/
def withEnding? (p : Path) (ending : String) : Option Path :=
  match p.getLast? with
  | some (.name n) => some (p.dropLast ++ [.name (n ++ ending)])
  | _ => none

/-- The beginnings of a spelling that end where a part ends. `before` is what stands before the
texts between the separators. -/
def beginningsAfter (first : Bool) (before : List Char) : List (List Char) → List String
  | [] => []
  | text :: rest =>
    (if (part? first text).isSome then [String.ofList (before ++ text)] else []) ++
      beginningsAfter false (before ++ text ++ ['/']) rest

/-- The beginnings of a spelling that end where one of its parts ends, the shortest first. -/
def beginnings (spelling : String) : List String :=
  match Text.pieces (· == '/') spelling.toList with
  | [] :: next :: rest => "/" :: beginningsAfter false ['/'] (next :: rest)
  | texts => beginningsAfter true [] texts

/-- The spellings of the folders around a file, from the inside out. -/
def foldersAround (spelling : String) : List String :=
  (beginnings spelling).dropLast.reverse

end Path

/-- The spelling of a file in a folder. A separator is added unless the folder's spelling is empty or
ends with one, and a path from the root stands for itself. -/
def joinPath (folder file : String) : String :=
  if file.startsWith "/" || folder = "" then file
  else if folder.endsWith "/" then folder ++ file
  else folder ++ "/" ++ file

end Blueprint
