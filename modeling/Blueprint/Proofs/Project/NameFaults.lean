import Blueprint.Project.Plan
import Blueprint.Project.Report
import Mathlib.Data.List.Count
import Mathlib.Data.List.Nodup

/-!
# The two checks of class names

A project is checked by going over all its names, an export stops at the first one that is at fault.
As long as nothing has been found the names seen so far differ from each other, so a name is met for
the second time exactly if it is among them, and both checks find the same first fault.
-/

namespace Blueprint

section Faults

/-- An export stops at the first of all faults. -/
theorem head?_nameFaults {seen : List String} (hseen : seen.Nodup) (names : List String) :
    (nameFaults seen names).head? = firstNameFault? seen names := by
  induction names generalizing seen with
  | nil => rfl
  | cons name rest ih =>
    by_cases hstem : isFileStem name = true
    · by_cases hmem : name ∈ seen
      · have hcount : seen.count name = 1 := List.count_eq_one_of_mem hseen hmem
        simp [nameFaults, firstNameFault?, hstem, hmem, hcount]
      · have hcount : seen.count name = 0 := List.count_eq_zero_of_not_mem hmem
        have hrest := ih (List.nodup_cons.mpr ⟨hmem, hseen⟩)
        simp [nameFaults, firstNameFault?, hstem, hmem, hcount, hrest]
    · simp [nameFaults, firstNameFault?, hstem]

/-- Names have no fault exactly if they are fit for files and differ from each other. -/
theorem firstNameFault?_eq_none_iff {seen names : List String} :
    firstNameFault? seen names = none ↔
      (∀ name ∈ names, isFileStem name = true) ∧ names.Nodup ∧ ∀ name ∈ names, name ∉ seen := by
  induction names generalizing seen with
  | nil => simp [firstNameFault?]
  | cons name rest ih =>
    by_cases hstem : isFileStem name = true
    · by_cases hmem : name ∈ seen
      · simp [firstNameFault?, hstem, hmem]
      · have hstep : firstNameFault? seen (name :: rest) = firstNameFault? (name :: seen) rest := by
          simp [firstNameFault?, hstem, hmem]
        rw [hstep, ih, List.forall_mem_cons, List.forall_mem_cons, List.nodup_cons]
        constructor
        · rintro ⟨hstems, hnodup, hrest⟩
          have hname : name ∉ rest := fun h => hrest name h List.mem_cons_self
          exact ⟨⟨hstem, hstems⟩, ⟨hname, hnodup⟩, hmem,
            fun n hn h => hrest n hn (List.mem_cons_of_mem _ h)⟩
        · rintro ⟨⟨-, hstems⟩, ⟨hname, hnodup⟩, -, hrest⟩
          refine ⟨hstems, hnodup, fun n hn h => ?_⟩
          rcases List.mem_cons.mp h with rfl | h
          · exact hname hn
          · exact hrest n hn h
    · simp [firstNameFault?, hstem]

theorem nameFaults_append (seen names names' : List String) :
    nameFaults seen (names ++ names') =
      nameFaults seen names ++ nameFaults (names.reverse ++ seen) names' := by
  induction names generalizing seen with
  | nil => rfl
  | cons name rest ih => simp [nameFaults, ih]

theorem count_unusable_nameFaults (seen names : List String) (n : String) :
    (nameFaults seen names).count (.unusable n) = if isFileStem n then 0 else names.count n := by
  induction names generalizing seen with
  | nil => simp [nameFaults]
  | cons name rest ih =>
    have hrepeated : (if seen.count name = 1 then [NameFault.repeated name] else []).count
        (.unusable n) = 0 := by
      split <;> simp
    rw [nameFaults, List.count_append, List.count_append, hrepeated, ih, List.count_cons]
    by_cases hname : name = n
    · subst hname
      by_cases hstem : isFileStem name = true
      · simp [hstem]
      · simp [hstem, Nat.add_comm]
    · by_cases hstem : isFileStem name = true <;> simp [hstem, hname]

/-- A name is reported as repeated once, where the seen names and the others make it two. -/
theorem count_repeated_nameFaults (seen names : List String) (n : String) :
    (nameFaults seen names).count (.repeated n) =
      if seen.count n ≤ 1 ∧ 2 ≤ seen.count n + names.count n then 1 else 0 := by
  induction names generalizing seen with
  | nil =>
    have hnone : ¬(seen.count n ≤ 1 ∧ 2 ≤ seen.count n) := by omega
    simp [nameFaults, hnone]
  | cons name rest ih =>
    have hunusable : (if isFileStem name then [] else [NameFault.unusable name]).count
        (.repeated n) = 0 := by
      split <;> simp
    rw [nameFaults, List.count_append, List.count_append, hunusable, ih, List.count_cons,
      List.count_cons]
    by_cases hname : name = n
    · subst hname
      by_cases hsecond : seen.count name = 1
      · simp only [hsecond, if_true, List.count_singleton_self, beq_self_eq_true]
        split <;> split <;> omega
      · simp only [hsecond, if_false, List.count_nil, beq_self_eq_true, if_true]
        split <;> split <;> omega
    · have hother : (if seen.count name = 1 then [NameFault.repeated name] else []).count
          (.repeated n) = 0 := by
        split <;> simp [hname]
      simp [hother, hname]

/-- The two sorts of message differ in their seventh character, and both show the name. -/
theorem NameFault.message_injective : Function.Injective NameFault.message := by
  have hdiffer : ∀ m n, (unusable m).message ≠ (repeated n).message := by
    intro m n h
    have hchar : (unusable m).message.toList[6]? = (repeated n).message.toList[6]? := by rw [h]
    simp [message, toString] at hchar
  intro f g h
  cases f with
  | unusable m =>
    cases g with
    | unusable n => simpa [message, toString] using h
    | repeated n => exact absurd h (hdiffer m n)
  | repeated m =>
    cases g with
    | unusable n => exact absurd h.symm (hdiffer n m)
    | repeated n => simpa [message, toString] using h

end Faults

section Project

variable {records : List ClassRecord}

theorem Project.errors_check (hne : records ≠ []) :
    (check records).errors = (nameFaults [] (records.map (·.name))).map .name := by
  simp [check, hne]

theorem Project.map_message_errors_check (hne : records ≠ []) :
    (check records).errors.map Error.message =
      (nameFaults [] (records.map (·.name))).map NameFault.message := by
  rw [errors_check hne, List.map_map]
  rfl

theorem ExportPlan.build_eq_error_iff {layout : ProjectLayout} {indent project : String}
    {fault : NameFault} :
    build layout indent project records = .error fault ↔
      firstNameFault? [] (records.map (·.name)) = some fault := by
  rw [build]
  split <;> simp_all

/-- A plan can be built exactly if the check of the project finds no error, and otherwise the reason
is the first error that the check finds. The check names each unusable name as often as it stands
there and each repeated name once. -/
theorem ExportPlan.build_iff_check (hne : records ≠ []) (layout : ProjectLayout)
    (indent project : String) :
    ((∃ fault, build layout indent project records = .error fault) ↔
        (Project.check records).errors ≠ []) ∧
      (∀ fault, build layout indent project records = .error fault →
        ((Project.check records).errors.map Project.Error.message).head? = some fault.message) ∧
      ((Project.check records).isOk = true →
        ∃ plan, build layout indent project records = .ok plan) ∧
      ∀ n, ((Project.check records).errors.map Project.Error.message).count
            (NameFault.unusable n).message =
          (if isFileStem n then 0 else (records.map (·.name)).count n) ∧
        ((Project.check records).errors.map Project.Error.message).count
            (NameFault.repeated n).message =
          if 2 ≤ (records.map (·.name)).count n then 1 else 0 := by
  have hfirst := head?_nameFaults List.nodup_nil (records.map (·.name))
  have hfails : (∃ fault, build layout indent project records = .error fault) ↔
      (Project.check records).errors ≠ [] := by
    simp only [build_eq_error_iff, ← hfirst, Project.errors_check hne]
    cases nameFaults [] (records.map (·.name)) <;> simp
  refine ⟨hfails, fun fault hfault => ?_, fun hok => ?_, fun n => ⟨?_, ?_⟩⟩
  · rw [build_eq_error_iff, ← hfirst] at hfault
    rw [Project.map_message_errors_check hne, List.head?_map, hfault, Option.map_some]
  · have hnone : (Project.check records).errors = [] := by simpa [Project.Report.isOk] using hok
    cases hbuild : build layout indent project records with
    | ok plan => exact ⟨plan, rfl⟩
    | error fault => exact absurd hnone (hfails.mp ⟨fault, hbuild⟩)
  · rw [Project.map_message_errors_check hne,
      List.count_map_of_injective _ _ NameFault.message_injective, count_unusable_nameFaults]
  · rw [Project.map_message_errors_check hne,
      List.count_map_of_injective _ _ NameFault.message_injective, count_repeated_nameFaults]
    simp

theorem ExportPlan.build_iff_check_repeated_unusable :
    (∃ fault, build {} "\t" "Demo" [{ id := "dsl_1", name := "Dup" }, { id := "dsl_2", name := ".." },
        { id := "dsl_3", name := "Dup" }, { id := "dsl_4", name := ".." },
        { id := "dsl_5", name := "Dup" }] = .error fault) ∧
      ((Project.check [{ id := "dsl_1", name := "Dup" }, { id := "dsl_2", name := ".." },
        { id := "dsl_3", name := "Dup" }, { id := "dsl_4", name := ".." },
        { id := "dsl_5", name := "Dup" }]).errors.map Project.Error.message).count
          (NameFault.repeated "Dup").message = 1 := by
  have hne : [({ id := "dsl_1", name := "Dup" } : ClassRecord), { id := "dsl_2", name := ".." },
      { id := "dsl_3", name := "Dup" }, { id := "dsl_4", name := ".." },
      { id := "dsl_5", name := "Dup" }] ≠ [] := by simp
  obtain ⟨hfails, -, -, hcount⟩ := build_iff_check hne {} "\t" "Demo"
  refine ⟨hfails.mpr (by decide +kernel), ?_⟩
  rw [(hcount "Dup").2]
  decide

end Project

end Blueprint
