import Blueprint.Description.Section
import Mathlib.Data.List.Basic

/-!
# Rows of a member section

When every member has a name and no column is longer than the column of names, each member is read
from its own row and nothing is left out. Whatever the columns are, a row is only read if it has a
name, and what it says comes from entries that are not empty.
-/

namespace Blueprint.Section

variable {α β : Type}

section Reading

theorem namedRows_map {ms : List α} {name : α → String} {member : Nat → String → β} {made : α → β}
    (hname : ∀ m ∈ ms, name m ≠ "") (h : ∀ i m, ms[i]? = some m → member i (name m) = made m) :
    namedRows (ms.map name) member = ms.map made := by
  have hzip : (ms.map name).zipIdx = ms.zipIdx.map fun mi => (name mi.1, mi.2) := by
    rw [List.zipIdx_map]
    rfl
  have hrow : ∀ mi ∈ ms.zipIdx, (if name mi.1 = "" then none else
      some (member mi.2 (name mi.1))) = some (made mi.1) := by
    intro mi hmi
    have hmem : ms[mi.2]? = some mi.1 := List.mem_zipIdx_iff_getElem?.mp hmi
    rw [if_neg (hname mi.1 (List.mem_of_getElem? hmem)), h mi.2 mi.1 hmem]
  have hfst : ms.zipIdx.map Prod.fst = ms := by simp
  rw [namedRows, hzip, List.filterMap_map]
  calc ms.zipIdx.filterMap _ = ms.zipIdx.filterMap (fun mi => some (made mi.1)) :=
        List.filterMap_congr hrow
    _ = ms.zipIdx.map (fun mi => made mi.1) := congrFun List.filterMap_eq_map _
    _ = ms.map made := by
        conv_rhs => rw [← hfst]
        rw [List.map_map]
        rfl

theorem namedRows_map_self {ms : List α} {name : α → String} {member : Nat → String → α}
    (hname : ∀ m ∈ ms, name m ≠ "") (h : ∀ i m, ms[i]? = some m → member i (name m) = m) :
    namedRows (ms.map name) member = ms :=
  (namedRows_map hname h).trans (List.map_id ms)

theorem cell_map {ms : List α} {text : α → String} {i : Nat} {m : α} (hm : ms[i]? = some m)
    (hne : text m ≠ "") : cell (ms.map text) i = some (text m) := by
  simp [cell, hm, hne]

theorem group_map {ms : List α} {texts : α → List String} {i : Nat} {m : α}
    (hm : ms[i]? = some m) : group (ms.map texts) i = texts m := by
  simp [group, hm]

theorem namelessRows_eq_nil {tag : Tag} {names : List String} (h : ∀ n ∈ names, n ≠ "") :
    namelessRows tag names = [] := by
  rw [namelessRows, List.filterMap_eq_nil_iff]
  intro ni hni
  simp [h ni.1 (List.fst_mem_of_mem_zipIdx hni)]

theorem tableOmissions_eq_nil {tag : Tag} {names : List String} {lengths : List Nat}
    (hnames : ∀ n ∈ names, n ≠ "") (hlengths : ∀ n ∈ lengths, n ≤ names.length) :
    tableOmissions tag names lengths = [] := by
  rw [tableOmissions, namelessRows_eq_nil hnames, List.append_nil, List.flatMap_eq_nil_iff]
  intro ni hni
  have hle := hlengths ni.1 (List.fst_mem_of_mem_zipIdx hni)
  exact if_neg (Nat.not_lt.mpr hle)

theorem name_ne_of_tableOmissions {tag : Tag} {names : List String} {lengths : List Nat}
    (h : tableOmissions tag names lengths = []) : ∀ n ∈ names, n ≠ "" := by
  have hrows : namelessRows tag names = [] := (List.append_eq_nil_iff.mp h).2
  rw [namelessRows, List.filterMap_eq_nil_iff] at hrows
  intro n hn hempty
  obtain ⟨i, hi⟩ := List.mem_iff_getElem?.mp hn
  have hrow := hrows (n, i) (List.mem_zipIdx_iff_getElem?.mpr hi)
  simp [hempty] at hrow

theorem length_le_of_tableOmissions {tag : Tag} {names : List String} {lengths : List Nat}
    (h : tableOmissions tag names lengths = []) : ∀ n ∈ lengths, n ≤ names.length := by
  have hcolumns := (List.append_eq_nil_iff.mp h).1
  rw [List.flatMap_eq_nil_iff] at hcolumns
  intro n hn
  obtain ⟨i, hi⟩ := List.mem_iff_getElem?.mp hn
  have hmem : (n, 1 + i) ∈ lengths.zipIdx 1 := by
    rw [List.mem_zipIdx_iff_le_and_getElem?_sub]
    simpa using hi
  have hcolumn := hcolumns (n, 1 + i) hmem
  by_contra hlt
  simp [surplus, Nat.not_le.mp hlt] at hcolumn

end Reading

section Read

variable {names column : List String} {i : Nat}

theorem exists_of_mem_namedRows {member : Nat → String → β} {b : β}
    (h : b ∈ namedRows names member) : ∃ i, ∃ n ∈ names, n ≠ "" ∧ b = member i n := by
  obtain ⟨⟨n, i⟩, hmem, hb⟩ := List.mem_filterMap.mp h
  by_cases hn : n = ""
  · simp [hn] at hb
  · exact ⟨i, n, List.fst_mem_of_mem_zipIdx hmem, hn, by simpa [hn, eq_comm] using hb⟩

theorem mem_of_cell_eq_some {s : String} (h : cell column i = some s) : s ∈ column ∧ s ≠ "" := by
  obtain ⟨hmem, hne⟩ : column[i]? = some s ∧ s ≠ "" := by simpa [cell] using h
  exact ⟨List.mem_of_getElem? hmem, hne⟩

theorem mem_of_mem_group {columns : List (List String)} {s : String}
    (h : s ∈ group columns i) : ∃ l ∈ columns, s ∈ l := by
  cases hc : columns[i]? with
  | none => simp [group, hc] at h
  | some l => exact ⟨l, List.mem_of_getElem? hc, by simpa [group, hc] using h⟩

theorem cell_getD {P : String → Prop} {substitute : String} (hsubstitute : P substitute)
    (h : ∀ s ∈ column, s ≠ "" → P s) : P ((cell column i).getD substitute) := by
  cases hc : cell column i with
  | none => exact hsubstitute
  | some s => exact h s (mem_of_cell_eq_some hc).1 (mem_of_cell_eq_some hc).2

theorem map_namedRows {γ : Type} (f : β → γ) (member : Nat → String → β) :
    (namedRows names member).map f = namedRows names fun i n => f (member i n) := by
  rw [namedRows, List.map_filterMap, namedRows]
  refine List.filterMap_congr fun ni _ => ?_
  by_cases hn : ni.1 = "" <;> simp [hn]

theorem getElem?_namedRows (h : ∀ n ∈ names, n ≠ "") (member : Nat → String → β) (i : Nat) :
    (namedRows names member)[i]? = names[i]?.map (member i) := by
  have hrows : namedRows names member = names.zipIdx.map fun ni => member ni.2 ni.1 := by
    rw [namedRows, ← List.filterMap_eq_map]
    refine List.filterMap_congr fun ni hni => ?_
    simp [h ni.1 (List.fst_mem_of_mem_zipIdx hni)]
  rw [hrows, List.getElem?_map, List.getElem?_zipIdx]
  cases names[i]? <;> simp

theorem reduceOption_eq_filterMap (l : List (Option α)) : l.reduceOption = l.filterMap id := rfl

/-- When every row is complete, leaving out the incomplete ones leaves out nothing. -/
theorem reduceOption_namedRows {member : Nat → String → Option β} {made : Nat → String → β}
    (h : ∀ i n, names[i]? = some n → member i n = some (made i n)) :
    (namedRows names member).reduceOption = namedRows names made := by
  rw [reduceOption_eq_filterMap, namedRows, List.filterMap_filterMap, namedRows]
  refine List.filterMap_congr fun ni hni => ?_
  by_cases hn : ni.1 = "" <;> simp [hn, h ni.2 ni.1 (List.mem_zipIdx_iff_getElem?.mp hni)]

theorem namedRows_name : (namedRows names fun _ n => n) = names.filter (· ≠ "") := by
  have hfst : names.zipIdx.map Prod.fst = names := by simp
  conv_rhs => rw [← hfst]
  rw [namedRows]
  induction names.zipIdx with
  | nil => rfl
  | cons ni rest ih => by_cases hn : ni.1 = "" <;> simp [hn, ih]

end Read

end Blueprint.Section
