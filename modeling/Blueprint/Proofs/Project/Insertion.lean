import Blueprint.Project.Plan
import Mathlib.Data.List.Dedup
import Mathlib.Data.List.Induction
import Mathlib.Data.List.Perm.Basic

/-!
# Putting files into a plan

A plan holds one file for each path. A file that is put into it changes what the plan holds at its own
path and nowhere else, so after any number of files the plan holds, at each of their paths, the
content that was put there last. It has as many files as there were different paths.
-/

namespace Blueprint

def PlannedFile.path (file : PlannedFile) : Path :=
  Path.ofText file.spelling

namespace ExportPlan

def content? (plan : ExportPlan) (path : Path) : Option String :=
  plan.byPath[path]?.map (·.content)

def ofFiles (files : List PlannedFile) : ExportPlan :=
  files.foldl (fun plan file => plan.insert file.spelling file.content) {}

theorem get?_eq_content? (plan : ExportPlan) (spelling : String) :
    plan.get? spelling = plan.content? (Path.ofText spelling) := rfl

section Step

variable (plan : ExportPlan) (spelling content : String) (path : Path)

theorem mem_insert :
    path ∈ (plan.insert spelling content).byPath ↔
      path = Path.ofText spelling ∨ path ∈ plan.byPath := by
  rw [insert, Std.TreeMap.mem_alter]
  by_cases hpath : Path.ofText spelling = path
  · subst hpath
    cases plan.byPath[Path.ofText spelling]? <;> simp
  · simp [hpath, Ne.symm hpath]

theorem content?_insert :
    (plan.insert spelling content).content? path =
      if path = Path.ofText spelling then some content else plan.content? path := by
  rw [content?, insert, Std.TreeMap.getElem?_alter]
  by_cases hpath : Path.ofText spelling = path
  · subst hpath
    cases plan.byPath[Path.ofText spelling]? <;> simp
  · simp [hpath, Ne.symm hpath, content?]

end Step

section Run

variable {files : List PlannedFile} {path : Path}

theorem ofFiles_concat (files : List PlannedFile) (file : PlannedFile) :
    ofFiles (files ++ [file]) = (ofFiles files).insert file.spelling file.content := by
  simp [ofFiles]

theorem mem_ofFiles : path ∈ (ofFiles files).byPath ↔ path ∈ files.map PlannedFile.path := by
  induction files using List.reverseRecOn with
  | nil => simp [ofFiles]
  | append_singleton files file ih =>
    rw [ofFiles_concat, mem_insert, ih, List.map_append, List.mem_append, or_comm]
    simp [PlannedFile.path]

theorem content?_ofFiles_concat (files : List PlannedFile) (file : PlannedFile) (path : Path) :
    (ofFiles (files ++ [file])).content? path =
      if path = file.path then some file.content else (ofFiles files).content? path := by
  rw [ofFiles_concat, content?_insert]
  rfl

theorem content?_of_nodup (hpaths : (files.map PlannedFile.path).Nodup) :
    ∀ file ∈ files, (ofFiles files).content? file.path = some file.content := by
  induction files using List.reverseRecOn with
  | nil => simp
  | append_singleton files last ih =>
    rw [List.map_append, List.nodup_append] at hpaths
    obtain ⟨hfiles, -, hdisjoint⟩ := hpaths
    intro file hfile
    rw [content?_ofFiles_concat]
    rcases List.mem_append.mp hfile with hfile | hfile
    · have hne : file.path ≠ last.path :=
        hdisjoint _ (List.mem_map_of_mem hfile) _ (by simp)
      rw [if_neg hne, ih hfiles file hfile]
    · rw [List.mem_singleton.mp hfile, if_pos rfl]

theorem size_ofFiles (files : List PlannedFile) :
    (ofFiles files).size = (files.map PlannedFile.path).dedup.length := by
  have hkeys : (ofFiles files).byPath.keys.Nodup :=
    Std.TreeMap.distinct_keys.imp fun h heq => h (by simp [heq])
  have hperm : (ofFiles files).byPath.keys.Perm (files.map PlannedFile.path).dedup := by
    rw [List.perm_ext_iff_of_nodup hkeys (List.nodup_dedup _)]
    intro path
    rw [Std.TreeMap.mem_keys, mem_ofFiles, List.mem_dedup]
  rw [← hperm.length_eq, Std.TreeMap.length_keys]
  rfl

/-- A plan has as many files as were put into it exactly if no two of them had the same path. -/
theorem size_ofFiles_eq_length_iff :
    (ofFiles files).size = files.length ↔ (files.map PlannedFile.path).Nodup := by
  rw [size_ofFiles, ← List.dedup_eq_self]
  constructor
  · intro h
    exact (List.dedup_sublist _).eq_of_length (by simpa using h)
  · intro h
    rw [h, List.length_map]

end Run

/-- A project has a plan exactly if its names have no fault, and the plan is that of its files. -/
theorem build_eq_ok_iff {layout : ProjectLayout} {indent project : String}
    {records : List ClassRecord} {plan : ExportPlan} :
    build layout indent project records = .ok plan ↔
      firstNameFault? [] (records.map (·.name)) = none ∧
        ofFiles (contributions layout indent project records) = plan := by
  rw [build]
  split <;> simp_all [ofFiles]

theorem exists_build_iff {layout : ProjectLayout} {indent project : String}
    {records : List ClassRecord} :
    (∃ plan, build layout indent project records = .ok plan) ↔
      firstNameFault? [] (records.map (·.name)) = none := by
  simp [build_eq_ok_iff]

end ExportPlan

end Blueprint
