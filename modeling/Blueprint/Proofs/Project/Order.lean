import Blueprint.Proofs.Project.Insertion

/-!
# The order of a plan

A plan has its files in ascending order of their paths. A path comes before each path that it is the
beginning of, so whatever has to become a folder is met before what goes into it.
-/

namespace Blueprint

namespace Path

variable {p q r : Path} {names : List String} {n : String}

/-- A path that is not empty and goes on from wherever it starts by names alone. -/
def Normal (p : Path) : Prop :=
  p ≠ [] ∧ ∀ part ∈ p, ∃ n, part = .name n

instance (part : PathPart) : Decidable (∃ n, part = .name n) :=
  match part with
  | .name n => .isTrue ⟨n, rfl⟩
  | .root | .here | .up => .isFalse (by simp)

instance (p : Path) : Decidable p.Normal :=
  inferInstanceAs (Decidable (_ ∧ _))

theorem names_inj {l m : List String} : l.map PathPart.name = m.map PathPart.name ↔ l = m :=
  List.map_inj_right fun _ _ => PathPart.name.inj

theorem normal_names (h : names ≠ []) : Normal (names.map .name) := by
  refine ⟨by simpa using h, fun part hpart => ?_⟩
  obtain ⟨n, -, rfl⟩ := List.mem_map.mp hpart
  exact ⟨n, rfl⟩

theorem Normal.exists_names (h : p.Normal) : ∃ names n, p = (names ++ [n]).map .name := by
  obtain ⟨hne, hall⟩ := h
  have hnames : ∃ names : List String, p = names.map .name := by
    clear hne
    induction p with
    | nil => exact ⟨[], rfl⟩
    | cons part p ih =>
      obtain ⟨n, rfl⟩ := hall part List.mem_cons_self
      obtain ⟨names, rfl⟩ := ih fun q hq => hall q (List.mem_cons_of_mem _ hq)
      exact ⟨n :: names, rfl⟩
  obtain ⟨names, rfl⟩ := hnames
  rcases List.eq_nil_or_concat' names with rfl | ⟨before, n, rfl⟩
  · exact absurd rfl hne
  · exact ⟨before, n, rfl⟩

def Above (p q : Path) : Prop :=
  p <+: q ∧ p ≠ q

instance (p q : Path) : Decidable (p.Above q) :=
  inferInstanceAs (Decidable (_ ∧ _))

theorem Above.trans (h : p.Above q) (h' : q.Above r) : p.Above r := by
  refine ⟨h.1.trans h'.1, ?_⟩
  rintro rfl
  exact h.2 (h.1.eq_of_length_le h'.1.length_le)

theorem above_concat : p.Above ((names ++ [n]).map .name) ↔ p <+: names.map .name := by
  rw [Above, List.map_append, List.map_singleton, List.prefix_concat_iff]
  constructor
  · rintro ⟨hp | hp, hne⟩
    · exact absurd hp hne
    · exact hp
  · intro hp
    refine ⟨.inr hp, fun heq => ?_⟩
    have hlength := hp.length_le
    rw [heq, List.length_append, List.length_singleton] at hlength
    omega

/-- A path comes before the paths below it. -/
theorem Above.compare_eq_lt (h : p.Above q) : compare p q = .lt := by
  obtain ⟨hbegin, hne⟩ := h
  rw [List.compare_eq_compareLex]
  induction p generalizing q with
  | nil =>
    cases q with
    | nil => exact absurd rfl hne
    | cons => exact List.compareLex_nil_cons
  | cons part p ih =>
    obtain ⟨rest, rfl⟩ := hbegin
    have hinner := ih (List.prefix_append p rest) (by simpa using hne)
    rw [List.cons_append, List.compareLex_cons_cons, Std.ReflOrd.compare_self, hinner]
    rfl

theorem not_above_of_lt (h : compare p q = .lt) : ¬q.Above p := by
  intro habove
  have hswap := habove.compare_eq_lt
  rw [Std.OrientedOrd.eq_swap (a := q), h] at hswap
  cases hswap

theorem ne_of_lt (h : compare p q = .lt) : p ≠ q := by
  rintro rfl
  rw [Std.ReflOrd.compare_self] at h
  cases h

end Path

def Ascending (files : List PlannedFile) : Prop :=
  files.Pairwise fun first second => compare first.path second.path = .lt

namespace ExportPlan

variable {plan : ExportPlan}

theorem files_eq (plan : ExportPlan) : plan.files = plan.byPath.toList.map Prod.snd := by
  have hfoldr : plan.byPath.foldr (fun _ file rest => file :: rest) [] = _ :=
    Std.TreeMap.foldr_eq_foldr_toList
  rw [List.map_eq_foldr]
  exact hfoldr

theorem mem_files {file : PlannedFile} :
    file ∈ plan.files ↔ ∃ path : Path, plan.byPath[path]? = some file := by
  simp [files_eq, Std.TreeMap.mem_toList_iff_getElem?_eq_some]

def Keyed (plan : ExportPlan) : Prop :=
  ∀ (path : Path) (file : PlannedFile), plan.byPath[path]? = some file → file.path = path

/-- A file is under the spelling that it was first put in with. -/
theorem spelling_of_insert {spelling content : String} {path : Path} {file : PlannedFile}
    (h : (plan.insert spelling content).byPath[path]? = some file) :
    (Path.ofText spelling = path ∧ file.spelling = spelling) ∨
      ∃ before, plan.byPath[path]? = some before ∧ file.spelling = before.spelling := by
  rw [ExportPlan.insert, Std.TreeMap.getElem?_alter] at h
  by_cases hpath : Path.ofText spelling = path
  · subst hpath
    cases hbefore : plan.byPath[Path.ofText spelling]? with
    | none =>
      obtain rfl : ⟨spelling, content⟩ = file := by simpa [hbefore] using h
      exact .inl ⟨rfl, rfl⟩
    | some before =>
      obtain rfl : { before with content } = file := by simpa [hbefore] using h
      exact .inr ⟨before, rfl, rfl⟩
  · exact .inr ⟨file, by simpa [hpath] using h, rfl⟩

theorem Keyed.insert (h : plan.Keyed) (spelling content : String) :
    (plan.insert spelling content).Keyed := by
  intro path file hfile
  rcases spelling_of_insert hfile with ⟨hpath, hspelling⟩ | ⟨before, hbefore, hspelling⟩
  · rw [PlannedFile.path, hspelling, hpath]
  · rw [PlannedFile.path, hspelling]
    exact h path before hbefore

theorem keyed_ofFiles (files : List PlannedFile) : (ofFiles files).Keyed := by
  induction files using List.reverseRecOn with
  | nil =>
    intro path file hfile
    simp [ofFiles] at hfile
  | append_singleton files file ih =>
    rw [ofFiles_concat]
    exact ih.insert file.spelling file.content

/-- The spellings of a plan are those of the files that were put into it. -/
theorem exists_spelling_of_ofFiles {files : List PlannedFile} {path : Path} {file : PlannedFile}
    (h : (ofFiles files).byPath[path]? = some file) : ∃ f ∈ files, file.spelling = f.spelling := by
  induction files using List.reverseRecOn generalizing file with
  | nil => simp [ofFiles] at h
  | append_singleton files last ih =>
    rw [ofFiles_concat] at h
    rcases spelling_of_insert h with ⟨-, hspelling⟩ | ⟨before, hbefore, hspelling⟩
    · exact ⟨last, by simp, hspelling⟩
    · obtain ⟨f, hf, hsame⟩ := ih hbefore
      exact ⟨f, by simp [hf], hspelling.trans hsame⟩

theorem Keyed.ascending (h : plan.Keyed) : Ascending plan.files := by
  have hkeys := Std.TreeMap.ordered_keys_toList (t := plan.byPath)
  rw [Ascending, files_eq, List.pairwise_map]
  refine hkeys.imp_of_mem fun {first second} hfirst hsecond hlt => ?_
  have hpath : ∀ entry ∈ plan.byPath.toList, entry.2.path = entry.1 := fun entry hentry =>
    h _ _ (Std.TreeMap.mem_toList_iff_getElem?_eq_some.mp hentry)
  rwa [hpath first hfirst, hpath second hsecond]

end ExportPlan

end Blueprint
