import Blueprint.Proofs.Files.Joining
import Blueprint.Proofs.Project.Insertion
import Blueprint.Proofs.Project.NameFaults

/-!
# Where the files of a project go

A class name adds exactly one part to the path of the folder that its scripts are in, and the names of
a project differ, so the scripts of one folder never share a path. The four locations of a layout are
not compared with each other when a plan is built. Files with the same path have different contents,
so the plan holds all files of the project exactly if the locations keep their paths apart.
-/

namespace Blueprint

open ExportPlan (scriptName globals)

section Names

theorem isControl_eq_false_of_mem {name : String} (h : isFileStem name = true) :
    ∀ c ∈ name.toList, c ≠ '/' ∧ isControl c = false := by
  simp only [isFileStem, Bool.and_eq_true, Bool.not_eq_true', List.any_eq_false] at h
  intro c hc
  have hclean := h.2 c hc
  simp only [Bool.or_eq_true, beq_iff_eq, not_or, Bool.not_eq_true] at hclean
  exact ⟨hclean.1.1.1, hclean.2⟩

theorem isName_scriptName {r : ClassRecord} (h : isFileStem r.name = true) :
    PathPart.IsName (scriptName r) := by
  have hletter : 'g' ∈ (scriptName r).toList := by simp [scriptName]
  have hne : ∀ s : String, 'g' ∉ s.toList → scriptName r ≠ s := fun s hs heq => hs (heq ▸ hletter)
  refine ⟨?_, hne "" (by decide), hne "." (by decide), hne ".." (by decide)⟩
  simpa [scriptName] using fun hmem => (isControl_eq_false_of_mem h '/' hmem).1 rfl

end Names

namespace ProjectLayout

variable (layout : ProjectLayout) (records : List ClassRecord)

def scriptPath (r : ClassRecord) : Path :=
  Path.ofText (joinPath layout.scriptsDir (scriptName r))

def autoloadPath (r : ClassRecord) : Path :=
  Path.ofText (joinPath layout.autoloadsDir (scriptName r))

def paths : List Path :=
  records.map layout.scriptPath ++ (globals records).map layout.autoloadPath ++
    (Path.ofText layout.manifest ::
      if globals records = [] then [] else [Path.ofText layout.autoloadRegistry])

structure Separate : Prop where
  folders : globals records ≠ [] → Path.ofText layout.scriptsDir ≠ Path.ofText layout.autoloadsDir
  script_ne_manifest : ∀ r ∈ records, layout.scriptPath r ≠ Path.ofText layout.manifest
  autoload_ne_manifest :
    ∀ r ∈ globals records, layout.autoloadPath r ≠ Path.ofText layout.manifest
  script_ne_registry : globals records ≠ [] →
    ∀ r ∈ records, layout.scriptPath r ≠ Path.ofText layout.autoloadRegistry
  autoload_ne_registry :
    ∀ r ∈ globals records, layout.autoloadPath r ≠ Path.ofText layout.autoloadRegistry
  manifest_ne_registry : globals records ≠ [] →
    Path.ofText layout.manifest ≠ Path.ofText layout.autoloadRegistry

variable {layout records}

theorem length_paths : (layout.paths records).length =
    records.length + (globals records).length + 1 + if globals records = [] then 0 else 1 := by
  by_cases hglobals : globals records = []
  · simp [paths, hglobals]
  · simp [paths, hglobals]
    omega

section Valid

variable (hvalid : firstNameFault? [] (records.map (·.name)) = none)

include hvalid

theorem isFileStem_of_mem {r : ClassRecord} (hr : r ∈ records) : isFileStem r.name = true :=
  (firstNameFault?_eq_none_iff.mp hvalid).1 _ (List.mem_map_of_mem hr)

theorem path_joinPath {r : ClassRecord} (hr : r ∈ records) (folder : String) :
    Path.ofText (joinPath folder (scriptName r)) =
      Path.ofText folder ++ [.name (scriptName r)] :=
  Path.ofText_joinPath (isName_scriptName (isFileStem_of_mem hvalid hr)) folder

theorem nodup_map_joinPath (folder : String) {chosen : List ClassRecord}
    (hchosen : chosen.Sublist records) :
    (chosen.map fun r => Path.ofText (joinPath folder (scriptName r))).Nodup := by
  have hnames : (chosen.map (·.name)).Nodup :=
    (hchosen.map _).nodup (firstNameFault?_eq_none_iff.mp hvalid).2.1
  have hpaths : chosen.map (fun r => Path.ofText (joinPath folder (scriptName r))) =
      (chosen.map (·.name)).map fun n => Path.ofText folder ++ [.name (n ++ ".gd")] := by
    rw [List.map_map]
    exact List.map_congr_left fun r hr => path_joinPath hvalid (hchosen.subset hr) folder
  rw [hpaths]
  exact hnames.map fun m n h => by simpa using h

/-- The files of a project have different paths exactly if the locations keep them apart. -/
theorem nodup_paths_iff : (layout.paths records).Nodup ↔ layout.Separate records := by
  have hglobals : (globals records).Sublist records := List.filter_sublist
  have hscripts := nodup_map_joinPath hvalid layout.scriptsDir (List.Sublist.refl records)
  have hautoloads := nodup_map_joinPath hvalid layout.autoloadsDir hglobals
  rw [paths, List.nodup_append, List.nodup_append]
  constructor
  · rintro ⟨⟨-, -, hfolders⟩, hfiles, hothers⟩
    simp only [List.forall_mem_map] at hfolders
    simp only [List.forall_mem_append, List.forall_mem_map, List.forall_mem_cons] at hothers
    obtain ⟨hscript, hautoload⟩ := hothers
    refine ⟨fun hne heq => ?_, fun r hr => (hscript r hr).1, fun r hr => (hautoload r hr).1,
      fun hne r hr => ?_, fun r hr => ?_, fun hne => ?_⟩
    · obtain ⟨r, hr⟩ := List.exists_mem_of_ne_nil _ hne
      have hrecord := hglobals.subset hr
      refine hfolders r hrecord r hr ?_
      rw [scriptPath, autoloadPath, path_joinPath hvalid hrecord, path_joinPath hvalid hrecord, heq]
    · exact (hscript r hr).2 _ (by simp [hne])
    · exact (hautoload r hr).2 _ (by simp [List.ne_nil_of_mem hr])
    · simpa [hne] using hfiles
  · intro hseparate
    refine ⟨⟨hscripts, hautoloads, ?_⟩, ?_, ?_⟩
    · simp only [List.forall_mem_map]
      intro r hr s hs heq
      have hne : globals records ≠ [] := List.ne_nil_of_mem hs
      rw [scriptPath, autoloadPath, path_joinPath hvalid hr,
        path_joinPath hvalid (hglobals.subset hs)] at heq
      exact hseparate.folders hne (List.append_inj_left' heq rfl)
    · by_cases hne : globals records = []
      · simp [hne]
      · simpa [hne] using hseparate.manifest_ne_registry hne
    · simp only [List.forall_mem_append, List.forall_mem_map, List.forall_mem_cons]
      refine ⟨fun r hr => ⟨hseparate.script_ne_manifest r hr, fun path hpath => ?_⟩,
        fun r hr => ⟨hseparate.autoload_ne_manifest r hr, fun path hpath => ?_⟩⟩
      · by_cases hne : globals records = []
        · simp [hne] at hpath
        · obtain rfl : path = Path.ofText layout.autoloadRegistry := by simpa [hne] using hpath
          exact hseparate.script_ne_registry hne r hr
      · obtain rfl : path = Path.ofText layout.autoloadRegistry := by
          simpa [List.ne_nil_of_mem hr] using hpath
        exact hseparate.autoload_ne_registry r hr

/-- Two folders, and two files that are in neither of them, keep the paths apart. -/
theorem separate_of_parent (hfolders : Path.ofText layout.scriptsDir ≠ Path.ofText layout.autoloadsDir)
    (hfiles : Path.ofText layout.manifest ≠ Path.ofText layout.autoloadRegistry)
    (houtside : ∀ file ∈ [layout.manifest, layout.autoloadRegistry],
      ∀ folder ∈ [layout.scriptsDir, layout.autoloadsDir],
        Path.parent? (Path.ofText file) ≠ some (Path.ofText folder)) :
    layout.Separate records := by
  have hne : ∀ r ∈ records, ∀ folder ∈ [layout.scriptsDir, layout.autoloadsDir],
      ∀ file ∈ [layout.manifest, layout.autoloadRegistry],
        Path.ofText (joinPath folder (scriptName r)) ≠ Path.ofText file := by
    intro r hr folder hfolder file hfile heq
    refine houtside file hfile folder hfolder ?_
    rw [← heq, path_joinPath hvalid hr, Path.parent?_append_name]
  have hglobals : ∀ r ∈ globals records, r ∈ records := fun r hr => List.mem_of_mem_filter hr
  exact
    { folders := fun _ => hfolders
      script_ne_manifest := fun r hr => hne r hr _ (by simp) _ (by simp)
      autoload_ne_manifest := fun r hr => hne r (hglobals r hr) _ (by simp) _ (by simp)
      script_ne_registry := fun _ r hr => hne r hr _ (by simp) _ (by simp)
      autoload_ne_registry := fun r hr => hne r (hglobals r hr) _ (by simp) _ (by simp)
      manifest_ne_registry := fun _ => hfiles }

end Valid

end ProjectLayout

end Blueprint
