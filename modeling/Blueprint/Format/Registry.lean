import Std.Data.TreeMap
import Blueprint.Exchange.Record
import Blueprint.Format.Canonical
import Blueprint.Format.Script

/-!
# Output formats

A format has a name, a description and a way to write a record, which may fail. A registry holds one
format for each name and lists the names in ascending order; registering a format again replaces the
one of that name.
-/
namespace Blueprint

/-- Why a record has no text in a format. -/
inductive FormatError where
  | notFound (name : String)
  | failed (reason : String)
  deriving DecidableEq

def FormatError.message : FormatError → String
  | notFound name => s!"Format '{name}' not found"
  | failed reason => s!"Serialization error: {reason}"

structure Format where
  name : String
  description : String
  write : ClassRecord → Except FormatError String

namespace Format

def canonical (table : DefaultTable) : Format :=
  ⟨"dsl", "Canonical single-line DSL", fun r => .ok (Canonical.write table r)⟩

def script (indent : String) : Format :=
  ⟨"gdscript", "GDScript class script", fun r => .ok (Script.ofClass indent r)⟩

def autoload (indent : String) : Format :=
  ⟨"autoload", "Autoload singleton script for global classes",
    fun r => .ok (Script.ofAutoload indent r)⟩

def json : Format :=
  ⟨"json", "Pretty-printed JSON record", fun r => .ok (Exchange.write r)⟩

end Format

structure Registry where
  formats : Std.TreeMap String Format := {}

namespace Registry

def register (registry : Registry) (format : Format) : Registry :=
  ⟨registry.formats.insert format.name format⟩

def get? (registry : Registry) (name : String) : Option Format :=
  registry.formats[name]?

def contains (registry : Registry) (name : String) : Bool :=
  registry.formats.contains name

def names (registry : Registry) : List String :=
  registry.formats.keys

/-- The text of a record in the format of the given name. -/
def write (registry : Registry) (name : String) (r : ClassRecord) : Except FormatError String :=
  match registry.get? name with
  | some format => format.write r
  | none => .error (.notFound name)

/-- The built-in formats with the given indent in scripts. -/
def builtin (indent : String) : Registry :=
  [Format.canonical .engine, .script indent, .autoload indent, .json].foldl register {}

end Registry
end Blueprint
