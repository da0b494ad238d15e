/-!
# Members of a class record

The things a class declares: signals, constants, enumerations, properties, functions and component
slots. `Members` holds all of them, each list in order of declaration, and two of them combine by
appending list to list.
-/
namespace Blueprint

structure Signal where
  name : String
  params : List String := []
  deriving DecidableEq

structure Constant where
  name : String
  type : String
  value : String
  deriving DecidableEq

structure Enumeration where
  name : String
  values : List String
  deriving DecidableEq

/-- A property. It has no default only when none was declared. -/
structure Property where
  name : String
  type : String
  default : Option String := none
  deriving DecidableEq

structure Function where
  name : String
  params : List String := []
  returnType : String
  body : Option String := none
  deriving DecidableEq

/-- A named slot for a sub-component. -/
structure Component where
  name : String
  type : String
  deriving DecidableEq

/-- The signal as it is shown to a person. -/
def Signal.display (s : Signal) : String :=
  s.name ++ "(" ++ ", ".intercalate s.params ++ ")"

/-- The comment that stands for the body of a function that is only declared. -/
def Function.placeholder (name : String) : String :=
  "# Implement " ++ name

/-- A function that is declared without a body of its own. -/
def Function.declared (name : String) (params : List String) (returnType : String) : Function :=
  ⟨name, params, returnType, some (placeholder name)⟩

/-- The four lists of properties a record has, in the order they are written. -/
inductive PropertyGroup where
  | flags | current | interface | unique
  deriving DecidableEq

def PropertyGroup.all : List PropertyGroup :=
  [flags, current, interface, unique]

/-- All that a class declares. -/
structure Members where
  signals : List Signal := []
  constants : List Constant := []
  enums : List Enumeration := []
  flags : List Property := []
  currentProps : List Property := []
  interfaceProps : List Property := []
  uniqueProps : List Property := []
  functions : List Function := []
  components : List Component := []
  deriving DecidableEq

namespace Members

def append (l r : Members) : Members where
  signals := l.signals ++ r.signals
  constants := l.constants ++ r.constants
  enums := l.enums ++ r.enums
  flags := l.flags ++ r.flags
  currentProps := l.currentProps ++ r.currentProps
  interfaceProps := l.interfaceProps ++ r.interfaceProps
  uniqueProps := l.uniqueProps ++ r.uniqueProps
  functions := l.functions ++ r.functions
  components := l.components ++ r.components

instance : Append Members := ⟨append⟩

theorem append_def (l r : Members) : l ++ r = l.append r := rfl

@[simp] theorem empty_append (m : Members) : ({} : Members) ++ m = m := by
  simp [append_def, append]

@[simp] theorem append_empty (m : Members) : m ++ ({} : Members) = m := by
  simp [append_def, append]

theorem append_assoc (l m r : Members) : l ++ m ++ r = l ++ (m ++ r) := by
  simp [append_def, append]

def properties (m : Members) : PropertyGroup → List Property
  | .flags => m.flags
  | .current => m.currentProps
  | .interface => m.interfaceProps
  | .unique => m.uniqueProps

def withProperties (m : Members) (group : PropertyGroup) (props : List Property) : Members :=
  match group with
  | .flags => { m with flags := props }
  | .current => { m with currentProps := props }
  | .interface => { m with interfaceProps := props }
  | .unique => { m with uniqueProps := props }

@[simp] theorem properties_withProperties (m : Members) (group : PropertyGroup)
    (props : List Property) : (m.withProperties group props).properties group = props := by
  cases group <;> rfl

/-- The properties of all groups, group by group. -/
def allProperties (m : Members) : List Property :=
  PropertyGroup.all.flatMap m.properties

def isEmpty (m : Members) : Bool :=
  m.signals.isEmpty && m.constants.isEmpty && m.enums.isEmpty && m.allProperties.isEmpty &&
    m.functions.isEmpty && m.components.isEmpty

end Members
end Blueprint
