import Blueprint.Settings.Basic

/-!
# The settings loader

A loader is told of files and of single keys in any order. A text that is no dotted key fails at
once; the files are read only when the settings are built, and there all of them count before the
keys.
-/
namespace Blueprint

/-- What a loader has been told so far. -/
structure SettingsLoader where
  layers : List SettingsLayer := []
  keys : List (SettingKey × String) := []
  deriving DecidableEq

namespace SettingsLoader

def addLayer (loader : SettingsLoader) (layer : SettingsLayer) : SettingsLoader :=
  { loader with layers := loader.layers ++ [layer] }

def setOverride (loader : SettingsLoader) (o : Override) : Except SettingsError SettingsLoader :=
  match SettingKey.ofText? o.key with
  | some path => .ok { loader with keys := loader.keys ++ [(path, o.value)] }
  | none => .error .badKey

/-- The settings that the built-in ones, the files and the keys give. -/
def build (loader : SettingsLoader) : Except SettingsError Settings := do
  let layered ← loader.layers.foldlM Settings.addLayer (Settings.tree {})
  let tree ← loader.keys.foldlM (fun tree (path, value) => Settings.setAt tree path (.scalar value))
    layered
  Settings.ofTree tree

/-- One thing that a loader is told. -/
inductive Step where
  | layer (layer : SettingsLayer)
  | override (o : Override)
  deriving DecidableEq

def step (loader : SettingsLoader) : Step → Except SettingsError SettingsLoader
  | .layer layer => .ok (loader.addLayer layer)
  | .override o => loader.setOverride o

/-- The settings of a loader that is told these things one after the other. -/
def run (steps : List Step) : Except SettingsError Settings := do
  (← steps.foldlM step {}).build

end SettingsLoader
end Blueprint
