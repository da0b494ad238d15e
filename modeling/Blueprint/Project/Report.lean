import Blueprint.Description.Basic
import Blueprint.Project.Engine
import Blueprint.Project.Names

/-!
# Checking descriptions and projects

A description is checked by reading it. A project is a list of records: its names must be fit for
files, and whatever a record refers to must be known to the engine or be a class of the project.
-/
namespace Blueprint

/-- What reading a description found. -/
structure Validation where
  errors : List String
  warnings : List String
  deriving DecidableEq

namespace Validation

def ofParse : Except HeaderFault Parsed → Validation
  | .ok parsed => ⟨[], parsed.diagnostics.map Diagnostic.message⟩
  | .error fault => ⟨[fault.message], []⟩

def isValid (v : Validation) : Bool :=
  v.errors.isEmpty

end Validation

namespace Project

inductive Error where
  | noClasses
  | name (fault : NameFault)
  deriving DecidableEq

def Error.message : Error → String
  | noClasses => "project contains no classes"
  | name fault => fault.message

/-- What a record refers to and nothing declares. -/
inductive Unresolved where
  | parent (name : String)
  | interface (name : String)
  | propertyType (type property : String)
  deriving DecidableEq

/-- An unresolved reference and the class that makes it. -/
structure Warning where
  className : String
  reference : Unresolved
  deriving DecidableEq

def Unresolved.message : Unresolved → String
  | parent name => s!"parent class '{name}' not found"
  | interface name => s!"interface '{name}' not found"
  | propertyType type property => s!"type '{type}' of property '{property}' not found"

def Warning.message (w : Warning) : String :=
  "class " ++ w.className ++ ": " ++ w.reference.message

structure Report where
  errors : List Error := []
  warnings : List Warning := []
  deriving DecidableEq

def Report.isOk (report : Report) : Bool :=
  report.errors.isEmpty

variable (records : List ClassRecord)

def declares (name : String) : Bool :=
  records.any (·.name == name)

def declaresInterface (name : String) : Bool :=
  records.any fun r => r.kind = .interface && r.name == name

/-- The references of a record that nothing in the project or the engine resolves. -/
def unresolved (r : ClassRecord) : List Unresolved :=
  (r.parent.toList.filter fun p => !Engine.isClass p && !declares records p).map .parent ++
    (r.interfaces.filter fun i => !declaresInterface records i).map .interface ++
    ((r.uniqueProps ++ r.currentProps ++ r.interfaceProps).filter fun p =>
      !Engine.isType p.type && !declares records p.type).map fun p => .propertyType p.type p.name

/-- Checks a project. -/
def check : Report :=
  if records.isEmpty then { errors := [.noClasses] }
  else
    { errors := (nameFaults [] (records.map (·.name))).map .name
      warnings := records.flatMap fun r => (unresolved records r).map (⟨r.name, ·⟩) }

end Project
end Blueprint
