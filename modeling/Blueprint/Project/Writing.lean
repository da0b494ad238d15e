import Blueprint.Files.Access
import Blueprint.Project.Plan

/-!
# Writing a plan

Each file of a plan is written in the order of the plan, after the folders on the way to it have been
made. The first failure ends the writing.
-/
namespace Blueprint

variable {m : Type → Type} [Monad m] [FileAccess m]

/-- Makes a folder and, where they are missing, those around it, given from the inside out. -/
def makeFolders : List String → m (Except FileError Unit)
  | [] => return .ok ()
  | folder :: around => do
    match ← FileAccess.makeFolder folder with
    | .ok () => return .ok ()
    | .error .missing => do
      match ← makeFolders around with
      | .error e => return .error e
      | .ok () => present folder (← FileAccess.makeFolder folder)
    | .error e => present folder (.error e)
where
  /-- A folder that could not be made may be there already. -/
  present (folder : String) (made : Except FileError Unit) : m (Except FileError Unit) := do
    match made with
    | .ok () => return .ok ()
    | .error e => return if ← FileAccess.isFolder folder then .ok () else .error e

/-- Writes a file together with the folders it needs. -/
def writeDeep (spelling content : String) : m (Except FileError Unit) := do
  match ← makeFolders (Path.foldersAround spelling) with
  | .error e => return .error e
  | .ok () => FileAccess.write spelling content.toUTF8

def writeAll (folder : String) : List PlannedFile → m (Except FileError Unit)
  | [] => return .ok ()
  | file :: rest => do
    match ← writeDeep (joinPath folder file.spelling) file.content with
    | .error e => return .error e
    | .ok () => writeAll folder rest

/-- Writes the files of a plan into a folder. -/
def ExportPlan.writeTo (plan : ExportPlan) (folder : String) : m (Except FileError Unit) :=
  writeAll folder plan.files

end Blueprint
