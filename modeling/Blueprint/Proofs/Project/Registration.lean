import Blueprint.Proofs.Project.Exactness
import Blueprint.Proofs.Script.Lines
import Mathlib.Data.List.Forall2

/-!
# Where the registered scripts are

The fragment that registers the global classes spells the path of each autoload script anew: it takes
the folder's spelling without the separators at its end and puts one separator behind it. That is the
path the plan has the script at, except for an empty folder, where the separator stands for the root.
The fragment has one line for each class as long as the folder's spelling has no line feed.
-/

namespace Blueprint

namespace ExportPlan

section Trimming

theorem exists_separators (folder : String) :
    ∃ k, folder = trimSeparators folder ++ String.ofList (List.replicate k '/') := by
  refine ⟨(folder.toList.reverse.takeWhile (· == '/')).length, ?_⟩
  have hends : folder.toList.reverse.takeWhile (· == '/') =
      List.replicate (folder.toList.reverse.takeWhile (· == '/')).length '/' :=
    List.eq_replicate_iff.mpr ⟨rfl, fun c hc => by simpa using List.mem_takeWhile_imp hc⟩
  have hsplit := List.takeWhile_append_dropWhile (p := (· == '/')) (l := folder.toList.reverse)
  rw [hends] at hsplit
  rw [← String.toList_inj, trimSeparators, String.toList_append, String.toList_ofList,
    String.toList_ofList, ← List.reverse_inj, List.reverse_append, List.reverse_replicate,
    List.reverse_reverse, hsplit]

theorem before_trimSeparators (folder : String) :
    Path.before (trimSeparators folder) = Path.before folder := by
  have hends : ∀ k, Path.before (trimSeparators folder ++ String.ofList (List.replicate k '/')) =
      Path.before (trimSeparators folder) := by
    intro k
    induction k with
    | zero => simp
    | succ k ih =>
      rw [List.replicate_succ', String.ofList_append, ← String.append_assoc]
      exact (Path.before_append_separator _).trans ih
  obtain ⟨k, hk⟩ := exists_separators folder
  conv_rhs => rw [hk]
  exact (hends k).symm

theorem mem_trimSeparators {folder : String} {c : Char} (hc : c ≠ '/') :
    c ∈ (trimSeparators folder).toList ↔ c ∈ folder.toList := by
  obtain ⟨k, hk⟩ := exists_separators folder
  conv_rhs => rw [hk]
  simp [hc]

end Trimming

variable {layout : ProjectLayout} {indent project : String} {records : List ClassRecord}
  {plan : ExportPlan}

/-- The line that registers a class with the script at a path. -/
def registeringLine (r : ClassRecord) (path : String) : String :=
  r.name ++ "=\"*res://" ++ path ++ "\""

/-- Behind its heading and an empty line the text has one line for each global class, in their order,
that registers the class with the path at which the plan has its autoload script. -/
def Registers (plan : ExportPlan) (layout : ProjectLayout) (records : List ClassRecord)
    (text : String) : Prop :=
  ∃ paths : List String,
    Script.linesOf text =
        ["[autoload]", ""] ++ List.zipWith registeringLine (globals records) paths ++ [""] ∧
      List.Forall₂ (fun r path => Path.ofText path = layout.autoloadPath r ∧
        Path.ofText path ∈ plan.byPath) (globals records) paths

theorem registryLine_eq (layout : ProjectLayout) (r : ClassRecord) :
    registryLine layout r =
      registeringLine r (trimSeparators layout.autoloadsDir ++ "/" ++ scriptName r) := by
  simp [registryLine, registeringLine, String.append_assoc]

theorem registeringLine_inj {r : ClassRecord} {path path' : String} :
    registeringLine r path = registeringLine r path' ↔ path = path' := by
  simp [registeringLine]

section Built

variable (h : build layout indent project records = .ok plan)

include h

theorem ofText_registered {r : ClassRecord} (hr : r ∈ globals records) :
    Path.ofText (trimSeparators layout.autoloadsDir ++ "/" ++ scriptName r) =
      layout.autoloadPath r ↔ layout.autoloadsDir ≠ "" := by
  have hvalid := (build_eq_ok_iff.mp h).1
  have hrecord : r ∈ records := List.mem_of_mem_filter hr
  have hname := isName_scriptName (ProjectLayout.isFileStem_of_mem hvalid hrecord)
  rw [Path.ofText_append_separator, before_trimSeparators, Path.behind_name hname,
    ProjectLayout.autoloadPath, ProjectLayout.path_joinPath hvalid hrecord,
    List.append_left_inj]
  by_cases hempty : layout.autoloadsDir = ""
  · simp [hempty, Path.ofText, Text.pieces, Path.part?]
  · simp [hempty, Path.before_of_ne]

theorem feed_not_mem_registryLine_iff {r : ClassRecord} (hr : r ∈ globals records) :
    '\n' ∉ (registryLine layout r).toList ↔ '\n' ∉ layout.autoloadsDir.toList := by
  have hvalid := (build_eq_ok_iff.mp h).1
  have hstem := ProjectLayout.isFileStem_of_mem hvalid (List.mem_of_mem_filter hr)
  have hname : '\n' ∉ r.name.toList := fun hmem =>
    absurd (isControl_eq_false_of_mem hstem '\n' hmem).2 (by decide)
  simp [registryLine, scriptName, hname, mem_trimSeparators]

/-- The fragment is the last file that is put into the plan, so nothing takes its place. -/
theorem get?_registry (hglobals : globals records ≠ []) :
    plan.get? layout.autoloadRegistry = some (registry layout records) := by
  obtain ⟨-, rfl⟩ := build_eq_ok_iff.mp h
  rw [get?_eq_content?, contributions, if_neg (by simpa using hglobals), content?_ofFiles_concat]
  exact if_pos rfl

theorem linesOf_registry (hfeed : '\n' ∉ layout.autoloadsDir.toList) :
    Script.linesOf (registry layout records) =
      ["[autoload]", ""] ++ (globals records).map (registryLine layout) ++ [""] := by
  refine Script.linesOf_ofLines fun line hline => ?_
  rcases List.mem_append.mp hline with hline | hline
  · have hheading : ∀ line ∈ ["[autoload]", ""], '\n' ∉ line.toList := by decide
    exact hheading line hline
  · obtain ⟨r, hr, rfl⟩ := List.mem_map.mp hline
    exact (feed_not_mem_registryLine_iff h hr).mpr hfeed

/-- A fragment with one line for each global class has no line feed in any of them. -/
theorem feed_not_mem_of_length (hglobals : globals records ≠ [])
    (hlength : (Script.linesOf (registry layout records)).length = (globals records).length + 3) :
    '\n' ∉ layout.autoloadsDir.toList := by
  rw [registry, Script.length_linesOf_ofLines] at hlength
  have hcount :
      (((globals records).map (registryLine layout)).flatMap String.toList).count '\n' = 0 := by
    simp only [List.flatMap_append, List.count_append, List.length_append, List.length_map,
      List.length_cons, List.length_nil] at hlength
    omega
  obtain ⟨r, hr⟩ := List.exists_mem_of_ne_nil _ hglobals
  refine (feed_not_mem_registryLine_iff h hr).mp fun hfeed => List.count_eq_zero.mp hcount ?_
  exact List.mem_flatMap.mpr ⟨_, List.mem_map_of_mem hr, hfeed⟩

theorem folder_of_registers (hglobals : globals records ≠ [])
    (hregisters : plan.Registers layout records (registry layout records)) :
    layout.autoloadsDir ≠ "" ∧ '\n' ∉ layout.autoloadsDir.toList := by
  obtain ⟨paths, hlines, hpaths⟩ := hregisters
  have hfeed : '\n' ∉ layout.autoloadsDir.toList := by
    refine feed_not_mem_of_length h hglobals ?_
    rw [hlines]
    simp [← hpaths.length_eq]
  refine ⟨?_, hfeed⟩
  rw [linesOf_registry h hfeed, List.append_left_inj, List.append_right_inj] at hlines
  obtain ⟨r, rest, hcons⟩ := List.exists_cons_of_ne_nil hglobals
  rw [hcons] at hpaths hlines
  cases hpaths with
  | cons hpath _ =>
    -- The line of the first class determines the path that it is registered with.
    have hline := (List.cons.inj hlines).1
    rw [registryLine_eq, registeringLine_inj] at hline
    rw [← hline] at hpath
    exact (ofText_registered h (hcons ▸ List.mem_cons_self)).mp hpath.1

theorem registers_of_folder (hfolder : layout.autoloadsDir ≠ "")
    (hfeed : '\n' ∉ layout.autoloadsDir.toList) :
    plan.Registers layout records (registry layout records) := by
  refine ⟨(globals records).map fun r =>
    trimSeparators layout.autoloadsDir ++ "/" ++ scriptName r, ?_, ?_⟩
  · rw [linesOf_registry h hfeed, List.zipWith_map_right, List.zipWith_self]
    simp only [← registryLine_eq]
  · rw [List.forall₂_map_right_iff, List.forall₂_same]
    intro r hr
    have hpath := (ofText_registered h hr).mpr hfolder
    refine ⟨hpath, ?_⟩
    rw [hpath, mem_of_build h]
    simp [ProjectLayout.paths, List.mem_map_of_mem hr]

/-- The fragment of a plan registers the global classes where the plan has their scripts exactly if
the folder of these scripts is spelled by a text that is not empty and has no line feed. -/
theorem registers_iff (hglobals : globals records ≠ []) :
    plan.get? layout.autoloadRegistry = some (registry layout records) ∧
      (plan.Registers layout records (registry layout records) ↔
        layout.autoloadsDir ≠ "" ∧ '\n' ∉ layout.autoloadsDir.toList) :=
  ⟨get?_registry h hglobals, folder_of_registers h hglobals,
    fun hfolder => registers_of_folder h hfolder.1 hfolder.2⟩

end Built

theorem registers_iff_trailing_separators :
    ∃ plan, build { autoloadsDir := "a/./b//" } "\t" "Demo"
        [{ id := "dsl_1", name := "Player" },
          { id := "dsl_2", name := "GlobalState", kind := .global }] = .ok plan ∧
      ∃ text, plan.get? "project_autoloads.cfg" = some text ∧
        plan.Registers { autoloadsDir := "a/./b//" }
          [{ id := "dsl_1", name := "Player" },
            { id := "dsl_2", name := "GlobalState", kind := .global }] text := by
  have hvalid : firstNameFault? [] ([{ id := "dsl_1", name := "Player" },
      { id := "dsl_2", name := "GlobalState", kind := .global }].map ClassRecord.name) = none := by
    decide
  obtain ⟨plan, h⟩ : ∃ plan, build { autoloadsDir := "a/./b//" } "\t" "Demo" _ = .ok plan :=
    exists_build_iff.mpr hvalid
  obtain ⟨hget, hregisters⟩ := registers_iff h (by simp [globals])
  exact ⟨plan, h, _, hget, hregisters.mpr (by decide)⟩

/-- With an empty folder the fragment names scripts at the root, where the plan has none. -/
theorem not_registers_of_build :
    ¬∀ (layout : ProjectLayout) (indent project : String) (records : List ClassRecord)
      (plan : ExportPlan), globals records ≠ [] →
        build layout indent project records = .ok plan →
          ∃ text, plan.get? layout.autoloadRegistry = some text ∧
            plan.Registers layout records text := by
  intro hall
  have hvalid : firstNameFault? []
      ([{ id := "dsl_1", name := "GlobalState", kind := .global }].map ClassRecord.name) = none := by
    decide
  have hglobals : globals [{ id := "dsl_1", name := "GlobalState", kind := .global }] ≠ [] := by
    simp [globals]
  obtain ⟨plan, h⟩ : ∃ plan, build { autoloadsDir := "" } "\t" "Demo" _ = .ok plan :=
    exists_build_iff.mpr hvalid
  obtain ⟨text, hget, hregisters⟩ := hall _ _ _ _ plan hglobals h
  rw [get?_registry h hglobals, Option.some_inj] at hget
  exact (folder_of_registers h hglobals (hget ▸ hregisters)).1 rfl

end ExportPlan

end Blueprint
