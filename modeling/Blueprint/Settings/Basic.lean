import Blueprint.Project.Plan
import Blueprint.Settings.Key

/-!
# Settings

The settings are those built in, then the layers in their order, then single keys that are set by
hand; of two that set the same key the later counts. What results is read as the six settings, each
of which is a text.
-/
namespace Blueprint

structure Settings where
  level : String := "warn"
  indent : String := "\t"
  layout : ProjectLayout := {}
  deriving DecidableEq

/-- Why there are no settings. -/
inductive SettingsError where
  /-- A key that is set by hand is no dotted key. -/
  | badKey
  /-- A file that must be there is not. -/
  | missingFile
  /-- A file is not TOML. -/
  | badFile
  /-- A setting is not a text. -/
  | notText (key : String)
  /-- A section lacks a setting, or is neither a table nor a list of its settings. -/
  | notSection
  /-- An index in a key leads to no place in its list. -/
  | noPlace
  deriving DecidableEq

/-- One file of settings; it has no text when it does not exist. -/
structure SettingsLayer where
  source : Option String
  required : Bool
  deriving DecidableEq

/-- A key that is set by hand, and the text of its value. -/
structure Override where
  key : String
  value : String
  deriving DecidableEq

namespace Settings

def sections (s : Settings) : List (String × List (String × String)) :=
  [("logging", [("level", s.level)]),
    ("emit", [("indent", s.indent)]),
    ("export",
      [("scripts_dir", s.layout.scriptsDir), ("autoloads_dir", s.layout.autoloadsDir),
        ("manifest", s.layout.manifest), ("autoload_registry", s.layout.autoloadRegistry)])]

def tree (s : Settings) : SettingTree :=
  .table (s.sections.map fun (name, settings) =>
    (name, .table (settings.map fun (key, value) => (key, .scalar value))))

/-- Merges a value at a path. -/
def setAt (tree : SettingTree) (path : SettingKey) (v : SettingTree) :
    Except SettingsError SettingTree :=
  match SettingTree.mergeAt? v path tree with
  | some tree => .ok tree
  | none => .error .noPlace

/-- Merges a value under the key that a text spells, or under the text itself. -/
def setEntry (tree : SettingTree) (key : String) (v : SettingTree) :
    Except SettingsError SettingTree :=
  match SettingKey.ofText? key with
  | some path => setAt tree path v
  | none => .ok (tree.merge key v)

/-- The settings that a file spells. A file as a whole cannot stand for a date or time. -/
def ofSource? (source : String) : Option (List (String × SettingTree)) := do
  let t ← Toml.parse? source
  if t.dateTimeEntry?.isSome then none else SettingTree.ofEntries? t

/-- Merges a layer. -/
def addLayer (tree : SettingTree) (layer : SettingsLayer) : Except SettingsError SettingTree :=
  match layer.source with
  | none => if layer.required then .error .missingFile else .ok tree
  | some source =>
    match ofSource? source with
    | none => .error .badFile
    | some entries => entries.foldlM (fun tree (key, v) => setEntry tree key v) tree

def textOf (key : String) : SettingTree → Except SettingsError String
  | .scalar text => .ok text
  | _ => .error (.notText key)

/-- Reads the settings of a section, which is a table or lists them in order. In a table, a setting
that is no text counts before one that is missing. -/
def sectionTexts (name : String) (keys : List String) : SettingTree →
    Except SettingsError (List String)
  | .table entries => do
    let found ← keys.mapM fun key => match entries.lookup key with
      | some v => some <$> textOf (name ++ "." ++ key) v
      | none => .ok none
    match found.mapM id with
    | some texts => .ok texts
    | none => .error .notSection
  | .list items =>
    keys.zipIdx.mapM fun (_, index) => match items[index]? with
      | some v => textOf (name ++ "[" ++ toString index ++ "]") v
      | none => .error .notSection
  | .scalar _ | .empty => .error .notSection

/-- Reads the settings of all sections, in their order. -/
def ofTree (tree : SettingTree) : Except SettingsError Settings := do
  let texts ← (sections {}).mapM fun (name, settings) =>
    match tree.get? name with
    | some v => sectionTexts name (settings.map (·.1)) v
    | none => .error .notSection
  match texts with
  | [[level], [indent], [scriptsDir, autoloadsDir, manifest, autoloadRegistry]] =>
    return ⟨level, indent, ⟨scriptsDir, autoloadsDir, manifest, autoloadRegistry⟩⟩
  | _ => .error .notSection

/-- The settings that layers and overrides give. -/
def load (layers : List SettingsLayer) (overrides : List Override) :
    Except SettingsError Settings := do
  let keys ← overrides.mapM fun o => match SettingKey.ofText? o.key with
    | some path => .ok (path, o.value)
    | none => .error .badKey
  let layered ← layers.foldlM addLayer (tree {})
  ofTree (← keys.foldlM (fun tree (path, value) => setAt tree path (.scalar value)) layered)

end Settings
end Blueprint
