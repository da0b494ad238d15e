/-!
# Section tags

A section of a description starts with a two-letter tag that says what its columns hold.
-/
namespace Blueprint

/-- The sections a description can have. -/
inductive Tag where
  | header
  | legacyVars
  | signals
  | functions
  | constants
  | enumeration
  | flags
  | currentProps
  | interfaceProps
  | uniqueProps
  | components
  deriving DecidableEq

namespace Tag

def all : List Tag :=
  [header, legacyVars, signals, functions, constants, enumeration, flags, currentProps,
    interfaceProps, uniqueProps, components]

/-- The letters a section of this tag starts with. -/
def code : Tag → String
  | header => "Cl"
  | legacyVars => "cv"
  | signals => "sg"
  | functions => "fn"
  | constants => "cn"
  | enumeration => "en"
  | flags => "fl"
  | currentProps => "cp"
  | interfaceProps => "ip"
  | uniqueProps => "up"
  | components => "cm"

def ofCode? (text : String) : Option Tag :=
  all.find? (·.code == text)

theorem ofCode?_code (tag : Tag) : ofCode? tag.code = some tag := by
  cases tag <;> decide

/-- The columns a section must have before any of its rows is read. -/
def columnsNeeded : Tag → Nat
  | header => 1
  | constants | flags | currentProps | uniqueProps => 3
  | legacyVars | signals | functions | enumeration | interfaceProps | components => 2

end Tag
end Blueprint
