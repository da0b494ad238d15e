import Blueprint.Proofs.Project.Locations

/-!
# What a plan holds

A plan that could be built has a file at each path of the project and at no other. It holds every file
that was generated, and counts as many, exactly if the locations of the layout keep the paths apart:
where two files share a path the later one takes the place of the earlier one without a fault.
-/

namespace Blueprint

namespace Script

theorem head?_ofLines (line : String) (lines : List String) :
    (ofLines (line :: lines)).toList.head? = (line.toList ++ ['\n']).head? := by
  cases h : line.toList <;> simp [ofLines, String.join_cons, h]

theorem head?_ofClass (indent : String) (r : ClassRecord) :
    (ofClass indent r).toList.head? = some (if r.kind = .interface then '#' else 'c') := by
  cases hkind : r.kind <;> simp [ofClass, classLines, opening, hkind, head?_ofLines]

theorem head?_ofAutoload (indent : String) (r : ClassRecord) :
    (ofAutoload indent r).toList.head? = some '#' := by
  simp [ofAutoload, autoloadLines, head?_ofLines]

end Script

namespace ExportPlan

variable {layout : ProjectLayout} {indent project : String} {records : List ClassRecord}
  {plan : ExportPlan}

theorem head?_manifest (project : String) (records : List ClassRecord) :
    (manifest project records).render.toList.head? = some '\x7b' := by
  simp [manifest, Json.render, Json.pretty]

theorem head?_registry (layout : ProjectLayout) (records : List ClassRecord) :
    (registry layout records).toList.head? = some '[' := by
  simp [registry, Script.head?_ofLines]

structure Complete (plan : ExportPlan) (layout : ProjectLayout) (indent project : String)
    (records : List ClassRecord) : Prop where
  script : ∀ r ∈ records,
    plan.get? (joinPath layout.scriptsDir (scriptName r)) = some (Script.ofClass indent r)
  autoload : ∀ r ∈ globals records,
    plan.get? (joinPath layout.autoloadsDir (scriptName r)) = some (Script.ofAutoload indent r)
  manifest : plan.get? layout.manifest = some (manifest project records).render
  registry : globals records ≠ [] →
    plan.get? layout.autoloadRegistry = some (registry layout records)

variable (layout indent project records)

def generated : List PlannedFile :=
  records.map (fun r => ⟨joinPath layout.scriptsDir (scriptName r), Script.ofClass indent r⟩) ++
    (globals records).map
      (fun r => ⟨joinPath layout.autoloadsDir (scriptName r), Script.ofAutoload indent r⟩) ++
    (⟨layout.manifest, (manifest project records).render⟩ ::
      if globals records = [] then [] else [⟨layout.autoloadRegistry, registry layout records⟩])

theorem contributions_perm :
    (contributions layout indent project records).Perm (generated layout indent project records) := by
  have hautoloads : (globals records).map (fun r =>
        (⟨joinPath layout.autoloadsDir (scriptName r), Script.ofAutoload indent r⟩ : PlannedFile)) =
      records.flatMap fun r => if r.kind = .global then
        [⟨joinPath layout.autoloadsDir (scriptName r), Script.ofAutoload indent r⟩] else [] := by
    induction records with
    | nil => rfl
    | cons r rest ih => by_cases hkind : r.kind = .global <;> simp_all [globals]
  rw [contributions, generated, hautoloads, List.append_assoc, List.map_eq_flatMap]
  refine List.Perm.append (List.flatMap_append_perm _ _ _).symm ?_
  simp

theorem map_path_generated :
    (generated layout indent project records).map PlannedFile.path = layout.paths records := by
  simp only [generated, ProjectLayout.paths, List.map_append, List.map_map, List.map_cons]
  congr 2
  split <;> rfl

variable {layout indent project records}

theorem complete_iff : plan.Complete layout indent project records ↔
    ∀ file ∈ generated layout indent project records,
      plan.content? file.path = some file.content := by
  simp only [generated, List.forall_mem_append, List.forall_mem_map, List.forall_mem_cons]
  constructor
  · rintro ⟨hscript, hautoload, hmanifest, hregistry⟩
    refine ⟨⟨hscript, hautoload⟩, hmanifest, fun file hfile => ?_⟩
    split at hfile
    · simp at hfile
    · rename_i hne
      rw [List.mem_singleton.mp hfile]
      exact hregistry hne
  · rintro ⟨⟨hscript, hautoload⟩, hmanifest, hregistry⟩
    refine ⟨hscript, hautoload, hmanifest, fun hne => ?_⟩
    exact hregistry ⟨layout.autoloadRegistry, ExportPlan.registry layout records⟩ (by simp [hne])

section Built

variable (h : build layout indent project records = .ok plan)

include h

theorem mem_of_build (path : Path) : path ∈ plan.byPath ↔ path ∈ layout.paths records := by
  obtain ⟨-, rfl⟩ := build_eq_ok_iff.mp h
  rw [mem_ofFiles, ← map_path_generated layout indent project]
  exact ((contributions_perm layout indent project records).map _).mem_iff

/-- The plan has as many files as were generated exactly if no two of these share a path. -/
theorem size_of_build : plan.size = (layout.paths records).length ↔ layout.Separate records := by
  obtain ⟨hvalid, rfl⟩ := build_eq_ok_iff.mp h
  have hperm := (contributions_perm layout indent project records).map PlannedFile.path
  rw [map_path_generated] at hperm
  rw [← ProjectLayout.nodup_paths_iff hvalid, ← hperm.length_eq, List.length_map,
    size_ofFiles_eq_length_iff, hperm.nodup_iff]

theorem complete_of_separate (hseparate : layout.Separate records) :
    plan.Complete layout indent project records := by
  obtain ⟨hvalid, rfl⟩ := build_eq_ok_iff.mp h
  have hperm := contributions_perm layout indent project records
  rw [complete_iff]
  intro file hfile
  refine content?_of_nodup ?_ file (hperm.mem_iff.mpr hfile)
  rw [(hperm.map _).nodup_iff, map_path_generated]
  exact (ProjectLayout.nodup_paths_iff hvalid).mpr hseparate

/-- Files of different sorts start with different letters, so none of them can stand for another. -/
theorem separate_of_complete (hcomplete : plan.Complete layout indent project records) :
    layout.Separate records := by
  obtain ⟨hvalid, -⟩ := build_eq_ok_iff.mp h
  have hne : ∀ {path path' : Path} {content content' : String},
      plan.content? path = some content → plan.content? path' = some content' →
        content.toList.head? ≠ content'.toList.head? → path ≠ path' := by
    rintro path path' content content' hpath hpath' hhead rfl
    exact hhead (by rw [Option.some.inj (hpath.symm.trans hpath')])
  refine
    { folders := fun hglobals heq => ?_
      script_ne_manifest := fun r hr => hne (hcomplete.script r hr) hcomplete.manifest ?_
      autoload_ne_manifest := fun r hr => hne (hcomplete.autoload r hr) hcomplete.manifest ?_
      script_ne_registry := fun hglobals r hr =>
        hne (hcomplete.script r hr) (hcomplete.registry hglobals) ?_
      autoload_ne_registry := fun r hr =>
        hne (hcomplete.autoload r hr) (hcomplete.registry (List.ne_nil_of_mem hr)) ?_
      manifest_ne_registry := fun hglobals =>
        hne hcomplete.manifest (hcomplete.registry hglobals) ?_ }
  · -- The two scripts of a global class tell the folders apart.
    obtain ⟨r, hr⟩ := List.exists_mem_of_ne_nil _ hglobals
    have hrecord : r ∈ records := List.mem_of_mem_filter hr
    have hkind : r.kind = .global := by simpa [globals] using (List.mem_filter.mp hr).2
    refine hne (hcomplete.script r hrecord) (hcomplete.autoload r hr) ?_ ?_
    · simp [Script.head?_ofClass, Script.head?_ofAutoload, hkind]
    · rw [ProjectLayout.path_joinPath hvalid hrecord, ProjectLayout.path_joinPath hvalid hrecord, heq]
  · rw [Script.head?_ofClass, head?_manifest]
    split <;> decide
  · rw [Script.head?_ofAutoload, head?_manifest]
    decide
  · rw [Script.head?_ofClass, head?_registry]
    split <;> decide
  · rw [Script.head?_ofAutoload, head?_registry]
    decide
  · rw [head?_manifest, head?_registry]
    decide

end Built

section Results

/-- A plan has a file at each path of the project and at no other, and a class name adds one part to
the path of the folder its scripts are in. Two different folders, and two different files outside of
them, keep all paths apart, and then each path has the file that was generated for it. -/
theorem exact_of_build (h : build layout indent project records = .ok plan) :
    (∀ path, path ∈ plan.byPath ↔
        (∃ r ∈ records, path = layout.scriptPath r) ∨
          (∃ r ∈ globals records, path = layout.autoloadPath r) ∨
            path = Path.ofText layout.manifest ∨
              globals records ≠ [] ∧ path = Path.ofText layout.autoloadRegistry) ∧
      (∀ r ∈ records,
        layout.scriptPath r = Path.ofText layout.scriptsDir ++ [.name (r.name ++ ".gd")] ∧
          layout.autoloadPath r = Path.ofText layout.autoloadsDir ++ [.name (r.name ++ ".gd")]) ∧
      (Path.ofText layout.scriptsDir ≠ Path.ofText layout.autoloadsDir →
        Path.ofText layout.manifest ≠ Path.ofText layout.autoloadRegistry →
        (∀ file ∈ [layout.manifest, layout.autoloadRegistry],
          ∀ folder ∈ [layout.scriptsDir, layout.autoloadsDir],
            Path.parent? (Path.ofText file) ≠ some (Path.ofText folder)) →
        (layout.paths records).Nodup ∧
          plan.size = records.length + (globals records).length + 1 +
            (if globals records = [] then 0 else 1) ∧
          plan.Complete layout indent project records) := by
  have hvalid := (build_eq_ok_iff.mp h).1
  refine ⟨fun path => ?_, fun r hr => ⟨?_, ?_⟩, fun hfolders hfiles houtside => ?_⟩
  · rw [mem_of_build h]
    by_cases hglobals : globals records = [] <;>
      simp [ProjectLayout.paths, hglobals, eq_comm]
  · exact ProjectLayout.path_joinPath hvalid hr _
  · exact ProjectLayout.path_joinPath hvalid hr _
  · have hseparate := ProjectLayout.separate_of_parent hvalid hfolders hfiles houtside
    refine ⟨(ProjectLayout.nodup_paths_iff hvalid).mpr hseparate, ?_,
      complete_of_separate h hseparate⟩
    rw [(size_of_build h).mpr hseparate, ProjectLayout.length_paths]

theorem exact_of_build_dotted :
    ∃ plan, build ⟨"gen//./scripts/", "", "gen/m.json", "./r.cfg"⟩ "\t" "Demo"
        [{ id := "dsl_1", name := "GlobalState", kind := .global },
          { id := "dsl_2", name := "..Über" }] = .ok plan ∧ plan.size = 5 := by
  have hvalid : firstNameFault? [] ([{ id := "dsl_1", name := "GlobalState", kind := .global },
      { id := "dsl_2", name := "..Über" }].map ClassRecord.name) = none := by decide
  obtain ⟨plan, h⟩ : ∃ plan, build ⟨"gen//./scripts/", "", "gen/m.json", "./r.cfg"⟩ "\t" "Demo" _ =
    .ok plan := exists_build_iff.mpr hvalid
  obtain ⟨-, -, hexact⟩ := exact_of_build h
  obtain ⟨-, hsize, -⟩ := hexact (by decide) (by decide) (by decide)
  exact ⟨plan, h, hsize⟩

/-- A plan holds every file that was generated, and has as many, exactly if the locations keep the
paths of the files apart. -/
theorem complete_iff_separate (h : build layout indent project records = .ok plan) :
    (plan.Complete layout indent project records ↔ layout.Separate records) ∧
      (plan.size = records.length + (globals records).length + 1 +
          (if globals records = [] then 0 else 1) ↔ layout.Separate records) := by
  refine ⟨⟨separate_of_complete h, complete_of_separate h⟩, ?_⟩
  rw [← ProjectLayout.length_paths, size_of_build h]

theorem complete_iff_separate_shared_manifest :
    ∃ plan, build ⟨"scripts", "autoloads", "scripts/./Player.gd", "r.cfg"⟩ "\t" "Demo"
        [{ id := "dsl_1", name := "Player" }] = .ok plan ∧ plan.size ≠ 2 := by
  have hvalid : firstNameFault? []
      ([{ id := "dsl_1", name := "Player" }].map ClassRecord.name) = none := by
    decide
  obtain ⟨plan, h⟩ : ∃ plan, build ⟨"scripts", "autoloads", "scripts/./Player.gd", "r.cfg"⟩ "\t"
    "Demo" _ = .ok plan := exists_build_iff.mpr hvalid
  refine ⟨plan, h, fun hsize => ?_⟩
  have hseparate := (complete_iff_separate h).2.mp hsize
  refine hseparate.script_ne_manifest _ List.mem_cons_self ?_
  rw [ProjectLayout.scriptPath, ProjectLayout.path_joinPath hvalid List.mem_cons_self]
  decide

/-- With one folder for both scripts of a global class the plan is built and has lost a script. -/
theorem not_complete_of_build :
    ¬∀ (layout : ProjectLayout) (indent project : String) (records : List ClassRecord)
      (plan : ExportPlan), build layout indent project records = .ok plan →
        plan.Complete layout indent project records := by
  intro hall
  have hvalid : firstNameFault? []
      ([{ id := "dsl_1", name := "GlobalState", kind := .global }].map ClassRecord.name) = none := by
    decide
  obtain ⟨plan, h⟩ := exists_build_iff.mpr hvalid
  have hcomplete := hall { autoloadsDir := "scripts" } "\t" "Demo" _ plan h
  exact (separate_of_complete h hcomplete).folders (by simp [globals]) rfl

end Results

end ExportPlan

end Blueprint
