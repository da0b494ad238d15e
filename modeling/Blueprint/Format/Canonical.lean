import Blueprint.Defaults
import Blueprint.Record.Basic
import Blueprint.Tag

/-!
# Canonical descriptions

The one-line description that is written for a record. The header always has a parent field, empty
when there is no parent, and each kind of member that the record has follows in a fixed order, every
enumeration in a section of its own. Function bodies, the kind and the position are not written.
-/
namespace Blueprint.Canonical

/-- The entries of a column. -/
def entries (texts : List String) : String :=
  ",".intercalate texts

/-- The entries of a column that holds a list for each row. -/
def groups (lists : List (List String)) : String :=
  "|".intercalate (lists.map entries)

/-- A section with the given columns. -/
def table (tag : Tag) (columns : List String) : String :=
  tag.code ++ "'" ++ "''".intercalate columns

def header (r : ClassRecord) : String :=
  "'".intercalate [Tag.header.code, r.name, r.parent.getD "", entries r.interfaces]

/-- The sections for a list of members: none for an empty list. -/
def forMembers {α : Type} (tag : Tag) (members : List α) (columns : List String) : List String :=
  if members.isEmpty then [] else [table tag columns]

/-- Properties with a default each, taken from the table where the property has none. -/
def properties (literals : DefaultTable) (tag : Tag) (props : List Property) : List String :=
  forMembers tag props
    [entries (props.map (·.name)), entries (props.map (·.type)),
      entries (props.map fun p => p.default.getD (literals.literal p.type))]

def constants (cs : List Constant) : List String :=
  forMembers .constants cs
    [entries (cs.map (·.name)), entries (cs.map (·.type)), entries (cs.map (·.value))]

def enumeration (e : Enumeration) : String :=
  table .enumeration [e.name, entries e.values]

/-- The column of defaults is written when some property has one. -/
def interfaceProps (props : List Property) : List String :=
  forMembers .interfaceProps props <|
    [entries (props.map (·.name)), entries (props.map (·.type))] ++
      if props.any (·.default.isSome) then [entries (props.map (·.default.getD ""))] else []

def signals (ss : List Signal) : List String :=
  forMembers .signals ss [entries (ss.map (·.name)), groups (ss.map (·.params))]

/-- The column of parameters is written when some function has any. -/
def functions (fs : List Function) : List String :=
  forMembers .functions fs <|
    [entries (fs.map (·.name)), entries (fs.map (·.returnType))] ++
      if fs.any (!·.params.isEmpty) then [groups (fs.map (·.params))] else []

def components (cs : List Component) : List String :=
  forMembers .components cs [entries (cs.map (·.name)), entries (cs.map (·.type))]

def sections (literals : DefaultTable) (r : ClassRecord) : List String :=
  [header r] ++ constants r.constants ++ r.enums.map enumeration ++
    properties literals .flags r.flags ++
    properties literals .currentProps r.currentProps ++
    interfaceProps r.interfaceProps ++
    properties literals .uniqueProps r.uniqueProps ++
    signals r.signals ++ functions r.functions ++ components r.components

/-- The canonical description of a record. -/
def write (literals : DefaultTable) (r : ClassRecord) : String :=
  ";".intercalate (sections literals r)

end Blueprint.Canonical
