import Blueprint.Defaults
import Blueprint.Description.Diagnostic
import Blueprint.Record.Member
import Blueprint.Segment

/-!
# Member sections

A member section is a table written column by column. Its first column names the rows, and entry
`i` of each further column belongs to row `i`. Entries beyond the names are dropped, an absent or
empty entry is replaced where the tag has a substitute, and a row without a name is skipped. Every
such loss is reported, and none is an error.
-/
namespace Blueprint.Section

/-- What a section adds to the members of a record, and what it left out. -/
structure Content where
  members : Members := {}
  omissions : List Omission := []
  deriving DecidableEq

/-- The entry of a column in a row, when it is there and not empty. -/
def cell (column : List String) (row : Nat) : Option String :=
  column[row]?.filter (· ≠ "")

/-- The group of a column in a row; a row beyond the groups has an empty one. -/
def group (column : List (List String)) (row : Nat) : List String :=
  column[row]?.getD []

/-- The rows that have a name, each made into a member. -/
def namedRows {α : Type} (names : List String) (member : Nat → String → α) : List α :=
  names.zipIdx.filterMap fun (name, row) => if name = "" then none else some (member row name)

def namelessRows (tag : Tag) (names : List String) : List Omission :=
  names.zipIdx.filterMap fun (name, row) => if name = "" then some (.emptyName tag row) else none

/-- The report on a column that has more entries than there are names. -/
def surplus (tag : Tag) (column entries names : Nat) : List Omission :=
  if names < entries then [.surplusValues tag column (entries - names)] else []

/-- The omissions of a table with columns of the given lengths beside its names. -/
def tableOmissions (tag : Tag) (names : List String) (lengths : List Nat) : List Omission :=
  (lengths.zipIdx 1).flatMap (fun (entries, column) => surplus tag column entries names.length) ++
    namelessRows tag names

/-- Rows of name and type. A row without a type is left out. -/
def legacyVars (table : DefaultTable) (names types : List String) : Content where
  members :=
    { uniqueProps := (namedRows names fun row name => (cell types row).map fun type =>
        (⟨name, type, some (table.literal type)⟩ : Property)).reduceOption }
  omissions :=
    tableOmissions .legacyVars names [types.length] ++
      (namedRows names fun row _ => if (cell types row).isNone then
        some (Omission.incompleteRow .legacyVars row) else none).reduceOption

def signals (names : List String) (params : List (List String)) : Content where
  members := { signals := namedRows names fun row name => ⟨name, group params row⟩ }
  omissions := tableOmissions .signals names [params.length]

def functions (names returns : List String) (params : List (List String)) : Content where
  members :=
    { functions := namedRows names fun row name =>
        .declared name (group params row) ((cell returns row).getD "void") }
  omissions := tableOmissions .functions names [returns.length, params.length]

def constants (table : DefaultTable) (names types values : List String) : Content where
  members :=
    { constants := namedRows names fun row name =>
        let type := (cell types row).getD "var"
        ⟨name, type, (cell values row).getD (table.literal type)⟩ }
  omissions := tableOmissions .constants names [types.length, values.length]

/-- The whole first column is the name of one enumeration. -/
def enumeration (name : String) (values : List String) : Content :=
  let values := values.filter (· ≠ "")
  if name = "" then { omissions := [.emptyName .enumeration 0] }
  else if values = [] then { omissions := [.incompleteRow .enumeration 0] }
  else { members := { enums := [⟨name, values⟩] } }

/-- Rows of name, type and default, with a substitute for both of the latter. -/
def properties (table : DefaultTable) (untyped : String) (names types values : List String) :
    List Property :=
  namedRows names fun row name =>
    let type := (cell types row).getD untyped
    ⟨name, type, some ((cell values row).getD (table.literal type))⟩

/-- Rows of name, type and default, where a default is never made up. -/
def interfaceProps (names types values : List String) : Content where
  members :=
    { interfaceProps := namedRows names fun row name =>
        ⟨name, (cell types row).getD "var", cell values row⟩ }
  omissions := tableOmissions .interfaceProps names [types.length, values.length]

def components (names types : List String) : Content where
  members :=
    { components := namedRows names fun row name => ⟨name, (cell types row).getD "Component"⟩ }
  omissions := tableOmissions .components names [types.length]

/-- The items of a column; a column that is not there has none. -/
def itemsAt (columns : List Segment) (column : Nat) : List String :=
  (columns[column]?.map Segment.items).getD []

/-- The groups of a column; a column that is not there has none. -/
def groupsAt (columns : List Segment) (column : Nat) : List (List String) :=
  (columns[column]?.map Segment.groups).getD []

/-- The content of a section whose columns, the first one without its tag, are enough for the tag. -/
def ofColumns (table : DefaultTable) (tag : Tag) (columns : List Segment) : Content :=
  let names := itemsAt columns 0
  let second := itemsAt columns 1
  let third := itemsAt columns 2
  let propertyOmissions := tableOmissions tag names [second.length, third.length]
  match tag with
  | .header => {}
  | .legacyVars => legacyVars table names second
  | .signals => signals names (groupsAt columns 1)
  | .functions => functions names second (groupsAt columns 2)
  | .constants => constants table names second third
  | .enumeration => enumeration ((columns[0]?.map Segment.trimmed).getD "") second
  | .flags =>
    { members := { flags := properties table "bool" names second third }
      omissions := propertyOmissions }
  | .currentProps =>
    { members := { currentProps := properties table "var" names second third }
      omissions := propertyOmissions }
  | .uniqueProps =>
    { members := { uniqueProps := properties table "var" names second third }
      omissions := propertyOmissions }
  | .interfaceProps => interfaceProps names second third
  | .components => components names second

/-- The content of a section with the given tag. -/
def read (table : DefaultTable) (tag : Tag) (s : Segment) : Content :=
  let columns := s.columns
  if columns.length < tag.columnsNeeded then
    { omissions := [.shortSection tag columns.length tag.columnsNeeded] }
  else
    ofColumns table tag (columns.modifyHead Segment.withoutTag)

end Blueprint.Section
