import Blueprint.Files.Access
import Blueprint.Files.Path

/-!
# File trees in memory

A file tree holds folders and files at locations, each a list of names from the root, and has a
folder from which relative paths start. All folders on the way to a file must exist before the file
can be read or written.
-/
namespace Blueprint

inductive FileNode where
  | folder
  | file (content : ByteArray)

def FileNode.isFolder : FileNode → Bool
  | folder => true
  | file _ => false

/-- The names on the way from the root. -/
abbrev Location := List String

structure FileTree where
  /-- The folder from which relative paths start. -/
  home : Location := []
  /-- The nodes below the root; the earlier entry for a location counts. -/
  nodes : List (Location × FileNode) := []

namespace FileTree

/-- What is at a location. The root is always a folder. -/
def node? (tree : FileTree) (place : Location) : Option FileNode :=
  if place = [] then some .folder else tree.nodes.lookup place

def put (tree : FileTree) (place : Location) (node : FileNode) : FileTree :=
  { tree with nodes := (place, node) :: tree.nodes.filter (·.1 ≠ place) }

/-- A location must be a folder for a path to go on from it. -/
def demandFolder (tree : FileTree) (place : Location) : Except FileError Unit :=
  match tree.node? place with
  | some .folder => .ok ()
  | some (.file _) => .error .notFolder
  | none => .error .missing

def nameLimit : Nat := 255

/-- The longest spelling of a path, in bytes. -/
def spellingLimit : Nat := 4095

/-- The step that a text between separators stands for. Unlike a part of a path, a dot is a step
wherever it stands: what is before it must be a folder. -/
def step? (text : List Char) : Option PathPart :=
  Path.part? true text

/-- The steps of a spelling. -/
def stepsOf (spelling : String) : List PathPart :=
  (if spelling.startsWith "/" then [.root] else []) ++
    (Text.pieces (· == '/') spelling.toList).filterMap step?

/-- Follows steps from a location. The last name need not exist, nor be one that a file can have. -/
def follow (tree : FileTree) : Location → List PathPart → Except FileError Location
  | place, [] => .ok place
  | _, .root :: rest => follow tree [] rest
  | place, .here :: rest => do
    tree.demandFolder place
    follow tree place rest
  | place, .up :: rest => do
    tree.demandFolder place
    follow tree place.dropLast rest
  | place, .name n :: rest => do
    tree.demandFolder place
    if !rest.isEmpty && nameLimit < n.utf8ByteSize then .error .nameTooLong
    else follow tree (place ++ [n]) rest

/-- A location, and whether the spelling ends with a separator and so demands a folder. -/
structure Target where
  place : Location
  asFolder : Bool

/-- The last name of the location must be one that a file can have. -/
def Target.demandName (target : Target) : Except FileError Unit :=
  match target.place.getLast? with
  | some name => if nameLimit < name.utf8ByteSize then .error .nameTooLong else .ok ()
  | none => .ok ()

/-- The location that a spelling names. -/
def locate (tree : FileTree) (spelling : String) : Except FileError Target := do
  if spelling.toList.contains (Char.ofNat 0) then .error .zeroCharacter
  else if spelling = "" then .error .missing
  else if spellingLimit < spelling.utf8ByteSize then .error .nameTooLong
  else
    let place ← tree.follow tree.home (stepsOf spelling)
    return ⟨place, spelling.endsWith "/"⟩

def read (tree : FileTree) (spelling : String) : Except FileError ByteArray := do
  let target ← tree.locate spelling
  target.demandName
  match tree.node? target.place with
  | none => .error .missing
  | some .folder => .error .isFolder
  | some (.file content) => if target.asFolder then .error .notFolder else .ok content

def isFolder (tree : FileTree) (spelling : String) : Bool :=
  match tree.locate spelling with
  | .ok target => (tree.node? target.place).any FileNode.isFolder
  | .error _ => false

def makeFolder (tree : FileTree) (spelling : String) : Except FileError FileTree := do
  let target ← tree.locate spelling
  target.demandName
  match tree.node? target.place with
  | none => .ok (tree.put target.place .folder)
  | some _ => .error .alreadyExists

/-- Writes a file in a folder that exists. -/
def write (tree : FileTree) (spelling : String) (content : ByteArray) :
    Except FileError FileTree := do
  let target ← tree.locate spelling
  if target.asFolder || (tree.node? target.place).any FileNode.isFolder then .error .isFolder
  else do
    target.demandName
    return tree.put target.place (.file content)

/-- An operation that changes the tree when it succeeds. -/
def change (step : FileTree → Except FileError FileTree) : StateM FileTree (Except FileError Unit) :=
  fun tree => match step tree with
    | .ok changed => (.ok (), changed)
    | .error e => (.error e, tree)

instance : FileAccess (StateM FileTree) where
  read spelling := return (← get).read spelling
  isFolder spelling := return (← get).isFolder spelling
  makeFolder spelling := change (·.makeFolder spelling)
  write spelling content := change (·.write spelling content)

def files (tree : FileTree) : List (Location × ByteArray) :=
  tree.nodes.filterMap fun (place, node) => match node with
    | .file content => some (place, content)
    | .folder => none

/-- The tree with a file put at a location and folders on the way to it. -/
def plant (tree : FileTree) (place : Location) (content : ByteArray) : FileTree :=
  let folders := (List.range place.length).map (place.take ·)
  (folders.foldl (fun tree folder => if (tree.node? folder).isNone then tree.put folder .folder
    else tree) tree).put place (.file content)

end FileTree
end Blueprint
