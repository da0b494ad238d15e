import Blueprint.Exchange.Record
import Blueprint.Files.Path
import Blueprint.Format.Canonical
import Blueprint.Format.Script
import Blueprint.Project.Names

/-!
# Export plans

A plan says which files an exported project consists of: a script for each class, a second one for
each global class, a manifest that holds all records, and, when there is a global class, a fragment
that registers these with the engine. A file whose path is already in the plan takes the place of
the earlier one, under the earlier spelling.
-/
namespace Blueprint

/-- Where the files of an exported project go, relative to its folder. -/
structure ProjectLayout where
  scriptsDir : String := "scripts"
  autoloadsDir : String := "autoloads"
  manifest : String := "weave_setup.json"
  autoloadRegistry : String := "project_autoloads.cfg"
  deriving DecidableEq

structure PlannedFile where
  spelling : String
  content : String
  deriving DecidableEq

/-- The files of a project by path. -/
structure ExportPlan where
  byPath : Std.TreeMap Path PlannedFile := {}

namespace ExportPlan

/-- Puts a file into the plan. A path that is already there keeps its spelling. -/
def insert (plan : ExportPlan) (spelling content : String) : ExportPlan :=
  ⟨plan.byPath.alter (Path.ofText spelling) fun
    | some file => some { file with content }
    | none => some ⟨spelling, content⟩⟩

/-- The files in ascending order of their paths. -/
def files (plan : ExportPlan) : List PlannedFile :=
  plan.byPath.values

def get? (plan : ExportPlan) (spelling : String) : Option String :=
  plan.byPath[Path.ofText spelling]?.map (·.content)

def size (plan : ExportPlan) : Nat :=
  plan.byPath.size

variable (layout : ProjectLayout) (indent : String)

def scriptName (r : ClassRecord) : String :=
  r.name ++ ".gd"

def globals (records : List ClassRecord) : List ClassRecord :=
  records.filter (·.kind = .global)

/-- The script of a class and, for a global class, its autoload script. -/
def classFiles (r : ClassRecord) : List PlannedFile :=
  [⟨joinPath layout.scriptsDir (scriptName r), Script.ofClass indent r⟩] ++
    if r.kind = .global then
      [⟨joinPath layout.autoloadsDir (scriptName r), Script.ofAutoload indent r⟩]
    else []

/-- The record of a class in the manifest, with its canonical description. -/
def manifestEntry (r : ClassRecord) : Json :=
  .object (Exchange.entries r ++ [("dsl", .text (Canonical.write .engine r))])

def manifest (project : String) (records : List ClassRecord) : Json :=
  .object [("projectName", .text project), ("version", .text "1.0.0"),
    ("classes", .list (records.map manifestEntry))]

/-- A folder's spelling without the separators at its end. -/
def trimSeparators (folder : String) : String :=
  String.ofList (folder.toList.reverse.dropWhile (· == '/')).reverse

def registryLine (r : ClassRecord) : String :=
  r.name ++ "=\"*res://" ++ trimSeparators layout.autoloadsDir ++ "/" ++ scriptName r ++ "\""

/-- The fragment that registers the global classes. -/
def registry (records : List ClassRecord) : String :=
  Script.ofLines (["[autoload]", ""] ++ (globals records).map (registryLine layout))

/-- The files of a project, in the order in which they are put into the plan. -/
def contributions (project : String) (records : List ClassRecord) : List PlannedFile :=
  records.flatMap (classFiles layout indent) ++
    [⟨layout.manifest, (manifest project records).render⟩] ++
    if (globals records).isEmpty then [] else [⟨layout.autoloadRegistry, registry layout records⟩]

/-- The plan of a project; the names of its classes must be fit for files. -/
def build (project : String) (records : List ClassRecord) : Except NameFault ExportPlan :=
  match firstNameFault? [] (records.map (·.name)) with
  | some fault => .error fault
  | none =>
    .ok ((contributions layout indent project records).foldl
      (fun plan file => plan.insert file.spelling file.content) {})

end ExportPlan
end Blueprint
