import Blueprint.Proofs.Effects
import Blueprint.Proofs.Settings.Layers
import Blueprint.Settings.Loader

/-!
# Precedence of settings

Each setting is the text of the last key that is set by hand for it, else its text in the last layer
that has one, else what is built in, in whatever order the loader is told of layers and keys. What
one layer or key gives counts only for the settings that it names, and only where nothing later does.
-/

namespace Blueprint

open SettingTree (foldKey)

/-! ### What counts -/

namespace Setting

/-- The text that layers and keys give a setting: that of the last key, else that of the last layer,
else the one built in. -/
def settled (x : Setting) (layers : List SettingsLayer) (overrides : List Override) : String :=
  (overrides.filterMap x.textOf?).getLastD ((layers.flatMap x.textsOf).getLastD (x.of {}))

variable {x : Setting} {layers : List SettingsLayer} {overrides : List Override}

/-- Without a layer only the settings change that it names and that nothing later names. -/
theorem settled_append_cons_ne {layer : SettingsLayer} {later : List SettingsLayer}
    (h : x.settled (layers ++ later) overrides ≠ x.settled (layers ++ layer :: later) overrides) :
    x.textsOf layer ≠ [] ∧ (∀ other ∈ later, x.textsOf other = []) ∧
      ∀ o ∈ overrides, x.textOf? o = none := by
  have hkeys := eq_nil_of_getLastD_ne h
  simp only [settled, hkeys, List.getLastD_nil, List.flatMap_append, List.flatMap_cons,
    getLastD_append] at h
  refine ⟨fun hnone => h (by rw [hnone, List.getLastD_nil]), ?_, List.filterMap_eq_nil_iff.mp hkeys⟩
  exact List.flatMap_eq_nil_iff.mp (eq_nil_of_getLastD_ne h)

/-- Without a key only the setting changes that it names, and only if no later key names it. -/
theorem settled_cons_append_ne {o : Override} {later : List Override}
    (h : x.settled layers (overrides ++ later) ≠ x.settled layers (overrides ++ o :: later)) :
    x.textOf? o ≠ none ∧ ∀ other ∈ later, x.textOf? other = none := by
  simp only [settled, List.filterMap_append, filterMap_cons_append, getLastD_append] at h
  refine ⟨fun hnone => h (by rw [hnone]; rfl), ?_⟩
  exact List.filterMap_eq_nil_iff.mp (eq_nil_of_getLastD_ne h)

end Setting

namespace Settings

def keyOf (o : Override) : Except SettingsError (SettingKey × String) :=
  match SettingKey.ofText? o.key with
  | some path => .ok (path, o.value)
  | none => .error .badKey

variable {tree : SettingTree} {texts : Setting → String}

theorem covers_overrides {overrides : List Override}
    (hkeys : ∀ o ∈ overrides, ∃ x : Setting, foldKey o.key = x.key) (hcovers : Covers tree texts) :
    ∃ keys, overrides.mapM keyOf = .ok keys ∧
      ∃ t, keys.foldlM (fun tree (path, value) => setAt tree path (.scalar value)) tree = .ok t ∧
        Covers t fun x => (overrides.filterMap x.textOf?).getLastD (texts x) := by
  induction overrides generalizing tree texts with
  | nil => exact ⟨[], rfl, tree, rfl, hcovers⟩
  | cons o rest ih =>
    obtain ⟨y, hkey⟩ := hkeys o List.mem_cons_self
    obtain ⟨path, hpath, next, hnext, hcovers⟩ := covers_override hkey hcovers
    obtain ⟨keys, hrest, t, ht, hcovers⟩ :=
      ih (fun p hp => hkeys p (List.mem_cons_of_mem _ hp)) hcovers
    have hkeyOf : keyOf o = .ok (path, o.value) := by rw [keyOf, hpath]
    refine ⟨(path, o.value) :: keys, ?_, t, ?_, ?_⟩
    · rw [List.mapM_cons, hkeyOf, hrest]
      rfl
    · exact bind_eq_ok_iff.mpr ⟨next, hnext, ht⟩
    · simpa only [filterMap_cons_append, getLastD_append] using hcovers

/-- Where the sections are tables and the settings are texts, each setting is settled by the last
that names it, unless an index leads to no place. -/
theorem load_eq {layers : List SettingsLayer} {overrides : List Override}
    (horderly : ∀ layer ∈ layers, layer.Orderly)
    (hkeys : ∀ o ∈ overrides, ∃ x : Setting, foldKey o.key = x.key) :
    (InReach layers → load layers overrides = .ok (ofTexts fun x => x.settled layers overrides)) ∧
      (¬InReach layers → load layers overrides = .error .noPlace) := by
  have hread : ∀ layer ∈ layers, layer.entries?.isSome = true := fun layer hlayer => by
    obtain ⟨entries, hentries, -⟩ := horderly layer hlayer
    exact Option.isSome_iff_exists.mpr ⟨entries, hentries⟩
  have hentries : ∀ entry ∈ entriesOf layers, ∀ path ∈ SettingKey.ofText? entry.1,
      entry.2.Orderly path := by
    intro entry hentry
    obtain ⟨layer, hlayer, hmem⟩ := List.mem_flatMap.mp hentry
    obtain ⟨entries, hentries, hpaths⟩ := horderly layer hlayer
    rw [Option.mem_def.mp hentries, Option.getD_some] at hmem
    exact hpaths entry hmem
  obtain ⟨keys, hkeysRead, -⟩ := covers_overrides hkeys (covers_tree {})
  obtain ⟨hin, hout⟩ := covers_foldlM hentries (covers_tree {})
  constructor
  · intro hreach
    obtain ⟨layered, hlayered, hcovers⟩ := hin hreach
    simp only [entriesOf, List.flatMap_assoc] at hcovers
    obtain ⟨keys, hkeysRead, t, ht, hcovers⟩ := covers_overrides hkeys hcovers
    rw [← foldlM_addLayer hread] at hlayered
    exact bind_eq_ok_iff.mpr ⟨keys, hkeysRead, bind_eq_ok_iff.mpr ⟨layered, hlayered,
      bind_eq_ok_iff.mpr ⟨t, ht, ofTree_of_covers hcovers⟩⟩⟩
  · intro hreach
    have hlayered := hout hreach
    rw [← foldlM_addLayer hread] at hlayered
    unfold load
    change (overrides.mapM keyOf >>= _) = _
    rw [hkeysRead]
    change (layers.foldlM addLayer (Settings.tree {}) >>= _) = _
    rw [hlayered]
    rfl

end Settings

/-! ### The order in which a loader is told -/

namespace SettingsLoader

open Settings (InReach keyOf load_eq ofTexts of_ofTexts)

def layersIn (steps : List Step) : List SettingsLayer :=
  steps.filterMap fun
    | .layer layer => some layer
    | .override _ => none

def overridesIn (steps : List Step) : List Override :=
  steps.filterMap fun
    | .layer _ => none
    | .override o => some o

@[simp] theorem layersIn_append (steps steps' : List Step) :
    layersIn (steps ++ steps') = layersIn steps ++ layersIn steps' :=
  List.filterMap_append

@[simp] theorem overridesIn_append (steps steps' : List Step) :
    overridesIn (steps ++ steps') = overridesIn steps ++ overridesIn steps' :=
  List.filterMap_append

@[simp] theorem layersIn_layer (layer : SettingsLayer) (steps : List Step) :
    layersIn (.layer layer :: steps) = layer :: layersIn steps := rfl

@[simp] theorem layersIn_override (o : Override) (steps : List Step) :
    layersIn (.override o :: steps) = layersIn steps := rfl

@[simp] theorem overridesIn_layer (layer : SettingsLayer) (steps : List Step) :
    overridesIn (.layer layer :: steps) = overridesIn steps := rfl

@[simp] theorem overridesIn_override (o : Override) (steps : List Step) :
    overridesIn (.override o :: steps) = o :: overridesIn steps := rfl

theorem setOverride_eq (loader : SettingsLoader) (o : Override) :
    loader.setOverride o = (keyOf o).map fun key => { loader with keys := loader.keys ++ [key] } := by
  unfold setOverride keyOf
  cases SettingKey.ofText? o.key <;> rfl

/-- A loader keeps the layers and the keys apart, each in the order in which it was told of them. -/
theorem foldlM_step (steps : List Step) (loader : SettingsLoader) :
    steps.foldlM step loader = ((overridesIn steps).mapM keyOf).map fun keys =>
      ⟨loader.layers ++ layersIn steps, loader.keys ++ keys⟩ := by
  induction steps generalizing loader with
  | nil =>
    change Except.ok loader = Except.ok ⟨loader.layers ++ [], loader.keys ++ []⟩
    simp
  | cons s rest ih =>
    rw [List.foldlM_cons]
    cases s with
    | layer layer =>
      have hstep : step loader (.layer layer) = .ok (loader.addLayer layer) := rfl
      rw [hstep]
      change rest.foldlM step (loader.addLayer layer) = _
      rw [ih]
      simp [addLayer]
    | override o =>
      have hstep : step loader (.override o) = loader.setOverride o := rfl
      rw [hstep, setOverride_eq, overridesIn_override, List.mapM_cons]
      cases keyOf o with
      | error e => rfl
      | ok key =>
        change rest.foldlM step { loader with keys := loader.keys ++ [key] } = _
        rw [ih]
        cases hkeys : (overridesIn rest).mapM keyOf with
        | error e => rfl
        | ok keys => simp [Except.map]; rfl

/-- Layers and keys may be told of in any order relative to each other. -/
theorem run_eq_load (steps : List Step) :
    run steps = Settings.load (layersIn steps) (overridesIn steps) := by
  unfold run Settings.load
  rw [foldlM_step]
  change _ = (overridesIn steps).mapM keyOf >>= _
  cases (overridesIn steps).mapM keyOf <;> rfl

/-- A loader is told of layers in which the sections are tables and the settings are texts, and of keys
of settings. If an index in a key of a layer leads to no place, there are no settings. Otherwise each
setting has its text in the last key, else in the last layer, else the one built in, in whatever order
the loader is told of layers and keys. Without one layer, if the indices of the others still lead to
places, or without one key, only settings change that it names and that nothing names which counts
more. -/
theorem run_precedence (steps : List Step)
    (horderly : ∀ layer ∈ layersIn steps, layer.Orderly)
    (hkeys : ∀ o ∈ overridesIn steps, ∃ x : Setting, foldKey o.key = x.key) :
    (¬InReach (layersIn steps) → run steps = .error .noPlace) ∧
    (InReach (layersIn steps) →
      ∃ s, run steps = .ok s ∧ Settings.load (layersIn steps) (overridesIn steps) = .ok s ∧
        (∀ x : Setting, x.of s = x.settled (layersIn steps) (overridesIn steps)) ∧
        (∀ other, layersIn other = layersIn steps → overridesIn other = overridesIn steps →
          run other = .ok s) ∧
        (∀ before layer after, steps = before ++ .layer layer :: after →
          InReach (layersIn (before ++ after)) →
          ∃ t, run (before ++ after) = .ok t ∧ ∀ x : Setting, x.of t ≠ x.of s →
            x.textsOf layer ≠ [] ∧ (∀ later ∈ layersIn after, x.textsOf later = []) ∧
              ∀ o ∈ overridesIn steps, x.textOf? o = none) ∧
        ∀ before o after, steps = before ++ .override o :: after →
          ∃ t, run (before ++ after) = .ok t ∧ ∀ x : Setting, x.of t ≠ x.of s →
            x.textOf? o ≠ none ∧ ∀ later ∈ overridesIn after, x.textOf? later = none) := by
  have hrun (told : List Step) (hlayers : layersIn told ⊆ layersIn steps)
      (hoverrides : overridesIn told ⊆ overridesIn steps) (hreach : InReach (layersIn told)) :
      run told = .ok (ofTexts fun x => x.settled (layersIn told) (overridesIn told)) := by
    rw [run_eq_load]
    exact (load_eq (fun layer h => horderly layer (hlayers h))
      (fun o h => hkeys o (hoverrides h))).1 hreach
  constructor
  · intro hreach
    rw [run_eq_load]
    exact (load_eq horderly hkeys).2 hreach
  intro hreach
  have hsteps := hrun steps (List.Subset.refl _) (List.Subset.refl _) hreach
  refine ⟨_, hsteps, (run_eq_load steps).symm.trans hsteps, of_ofTexts _, ?_, ?_, ?_⟩
  · intro other hlayers hoverrides
    rw [hrun other (by simp [hlayers]) (by simp [hoverrides]) (by rwa [hlayers]), hlayers, hoverrides]
  · rintro before layer after rfl hothers
    refine ⟨_, hrun (before ++ after) (by simp) (by simp) hothers, fun x hx => ?_⟩
    simp only [of_ofTexts, layersIn_append, layersIn_layer, overridesIn_append,
      overridesIn_layer] at hx ⊢
    exact Setting.settled_append_cons_ne hx
  · rintro before o after rfl
    have hothers : InReach (layersIn (before ++ after)) := by simpa using hreach
    refine ⟨_, hrun (before ++ after) (by simp) (by simp) hothers, fun x hx => ?_⟩
    simp only [of_ofTexts, layersIn_append, layersIn_override, overridesIn_append,
      overridesIn_override] at hx
    exact Setting.settled_cons_append_ne hx

/-- The sections of this layer are tables, as there are none, and it names no setting. But its index
counts back from the end of a list that has no items. -/
theorem run_index_in_front :
    let layer : SettingsLayer := ⟨some "\"x[-1]\" = 1", true⟩
    layer.Orderly ∧ (∀ x : Setting, x.textsOf layer = []) ∧
      run [.layer layer] = .error .noPlace := by
  refine ⟨?_, ?_, ?_⟩ <;> decide +kernel

/-- A key that was set before the files, a file that is not there, two spellings of one section, a
dotted key beside an empty table, and an index from the end of a list with one item. -/
def interleaved : List Step :=
  [.override ⟨"EXPORT.manifest", "setup.json"⟩,
    .layer ⟨some "[logging]\nlevel = \"info\"\n[Export]\nmanifest = 'a.json'", true⟩,
    .layer ⟨none, false⟩, .layer ⟨some "x = [1]\n\"Logging.level\" = 3\n[export]", false⟩,
    .layer ⟨some "\"X[-1]\" = 2", true⟩]

theorem run_precedence_interleaved :
    InReach (layersIn interleaved) ∧
      ∃ s, run interleaved = .ok s ∧
        s.level = "3" ∧ s.layout.manifest = "setup.json" ∧ s.layout.scriptsDir = "scripts" := by
  obtain ⟨hout, hin⟩ := run_precedence interleaved (by decide +kernel) (by decide +kernel)
  have hok : run interleaved ≠ .error .noPlace := by decide +kernel
  have hreach : InReach (layersIn interleaved) := Classical.not_not.mp fun hnot => hok (hout hnot)
  obtain ⟨s, hs, -, hsettled, -⟩ := hin hreach
  exact ⟨hreach, s, hs, (hsettled .level).trans (by decide +kernel),
    (hsettled .manifest).trans (by decide +kernel), (hsettled .scriptsDir).trans (by decide +kernel)⟩

end SettingsLoader

end Blueprint
