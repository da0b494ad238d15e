import Blueprint.Proofs.Files.Chains
import Blueprint.Proofs.Project.Order

/-!
# Writing a plan into an empty folder

A plan is written in the order of its paths, and a path comes before each path that it is the beginning
of. So when a file stands where a later one needs a folder it is the making of this folder that fails,
and no file is ever written over a folder. Without such a pair the folder holds the files of the plan in
the end, the folders that they need, and nothing else.
-/

namespace Blueprint

open FileTree (Effect Opens Grounded Clear Opened Keeps)

/-- A planned file that a folder can hold: names alone lead to it, its spelling goes on behind the last
of them neither with a separator nor with a dot, and a path can have these names and this spelling. -/
structure PlannedFile.Fits (folder : String) (file : PlannedFile) : Prop where
  normal : file.path.Normal
  separator : file.spelling.endsWith "/" = false
  dot : file.spelling.endsWith "/." = false
  short : ∀ n, .name n ∈ file.path → n.utf8ByteSize ≤ FileTree.nameLimit
  nameable : FileTree.Nameable (joinPath folder file.spelling)

theorem PlannedFile.Fits.of_names {folder : String} {file : PlannedFile} (names : List String)
    (hpath : file.path = names.map .name) (hne : names ≠ [])
    (hsep : file.spelling.endsWith "/" = false) (hdot : file.spelling.endsWith "/." = false)
    (hshort : ∀ n ∈ names, n.utf8ByteSize ≤ FileTree.nameLimit)
    (hname : FileTree.Nameable (joinPath folder file.spelling)) : file.Fits folder where
  normal := hpath ▸ Path.normal_names hne
  separator := hsep
  dot := hdot
  short n hn := by
    rw [hpath] at hn
    exact hshort n (by simpa using hn)
  nameable := hname

/-- Below the location there are the files and the folders that they need, and nothing else. Away from
it the tree is as it was. -/
structure Holds (base : Location) (files : List PlannedFile) (tree written : FileTree) : Prop where
  home : written.home = tree.home
  file : ∀ rest bytes, written.node? (base ++ rest) = some (.file bytes) ↔
    ∃ file ∈ files, file.path = rest.map .name ∧ bytes = file.content.toUTF8
  folder : ∀ rest, written.node? (base ++ rest) = some .folder ↔
    rest = [] ∨ ∃ file ∈ files, Path.Above (rest.map .name) file.path
  outside : ∀ place, ¬base <+: place → written.node? place = tree.node? place

theorem Holds.of_empty {base : Location} {tree : FileTree} (hbase : tree.node? base = some .folder)
    (hempty : ∀ rest, rest ≠ [] → tree.node? (base ++ rest) = none) : Holds base [] tree tree where
  home := rfl
  file rest bytes := by
    by_cases hrest : rest = []
    · simp [hrest, hbase]
    · simp [hempty rest hrest]
  folder rest := by
    by_cases hrest : rest = []
    · simp [hrest, hbase]
    · simp [hempty rest hrest, hrest]
  outside _ _ := rfl

section Step

variable {base : Location} {done : List PlannedFile} {tree written : FileTree} {folder : String}
  {file : PlannedFile} {names : List String} {n : String}

theorem Holds.grounded (h : Holds base done tree written) : Grounded written base where
  ground := by simpa using (h.folder []).mpr (.inl rfl)
  around names n hnode := by
    rw [h.folder]
    cases hn : written.node? (base ++ (names ++ [n])) with
    | none => exact absurd hn hnode
    | some node =>
      cases node with
      | file bytes =>
        obtain ⟨file, hfile, hpath, -⟩ := (h.file _ _).mp hn
        exact .inr ⟨file, hfile, hpath ▸ Path.above_concat.mpr List.prefix_rfl⟩
      | folder =>
        rcases (h.folder _).mp hn with hempty | ⟨file, hfile, habove⟩
        · simp at hempty
        · have hinner : Path.Above (names.map .name) ((names ++ [n]).map .name) :=
            Path.above_concat.mpr List.prefix_rfl
          exact .inr ⟨file, hfile, hinner.trans habove⟩

theorem Holds.clear_iff (h : Holds base done tree written) :
    Clear written base names ↔ ¬∃ p ∈ done, p.path.Above ((names ++ [n]).map .name) := by
  constructor
  · rintro hclear ⟨p, hp, habove⟩
    obtain ⟨q, hq, hpath⟩ := List.prefix_map_iff.mp (Path.above_concat.mp habove)
    exact hclear q hq _ ((h.file q _).mpr ⟨p, hp, hpath, rfl⟩)
  · intro hnone q hq content hfile
    obtain ⟨p, hp, hpath, -⟩ := (h.file q _).mp hfile
    exact hnone ⟨p, hp, Path.above_concat.mpr (hpath ▸ hq.map _)⟩

section Put

variable {grown : FileTree} (h : Holds base done tree written)
  (hpath : file.path = (names ++ [n]).map .name)
  (hlater : ∀ p ∈ done, compare p.path file.path = .lt) (hopened : Opened base names written grown)

include h hpath hlater hopened

/-- No folder stands where a file is to be written, since the paths below it come later. -/
theorem Holds.node?_ne_folder : grown.node? (base ++ (names ++ [n])) ≠ some .folder := by
  rw [hopened.node?_concat]
  intro hfolder
  rcases (h.folder _).mp hfolder with hempty | ⟨p, hp, habove⟩
  · simp at hempty
  · rw [← hpath] at habove
    exact Path.not_above_of_lt (hlater p hp) habove

theorem Holds.file_put (hnone : ¬∃ p ∈ done, p.path.Above file.path) (rest : List String)
    (bytes : ByteArray) :
    (grown.put (base ++ (names ++ [n])) (.file file.content.toUTF8)).node? (base ++ rest) =
        some (.file bytes) ↔
      ∃ p ∈ done ++ [file], p.path = rest.map .name ∧ bytes = p.content.toUTF8 := by
  rw [hopened.node?_put]
  split
  next hself =>
    subst hself
    constructor
    · intro hbytes
      exact ⟨file, by simp, hpath, by simpa using hbytes.symm⟩
    · rintro ⟨p, hp, hsame, rfl⟩
      rcases List.mem_append.mp hp with hp | hp
      · exact absurd (hsame.trans hpath.symm) (Path.ne_of_lt (hlater p hp))
      · rw [List.mem_singleton.mp hp]
  next hself =>
    have hfile : file.path ≠ rest.map .name := fun heq =>
      hself (Path.names_inj.mp (heq.symm.trans hpath))
    split
    next hbegin =>
      refine iff_of_false (by simp) ?_
      rintro ⟨p, hp, hsame, -⟩
      rcases List.mem_append.mp hp with hp | hp
      · refine hnone ⟨p, hp, ?_⟩
        rw [hpath, Path.above_concat, hsame]
        exact hbegin.map _
      · exact hfile (List.mem_singleton.mp hp ▸ hsame)
    next =>
      rw [h.file]
      constructor
      · rintro ⟨p, hp, hsame⟩
        exact ⟨p, List.mem_append_left _ hp, hsame⟩
      · rintro ⟨p, hp, hsame, hbytes⟩
        rcases List.mem_append.mp hp with hp | hp
        · exact ⟨p, hp, hsame, hbytes⟩
        · exact absurd (List.mem_singleton.mp hp ▸ hsame) hfile

/-- The folders that stand there when another file is put behind those that are there. -/
theorem Holds.folder_put (rest : List String) :
    (grown.put (base ++ (names ++ [n])) (.file file.content.toUTF8)).node? (base ++ rest) =
        some .folder ↔
      rest = [] ∨ ∃ p ∈ done ++ [file], Path.Above (rest.map .name) p.path := by
  rw [hopened.node?_put]
  split
  next hself =>
    subst hself
    refine iff_of_false (by simp) ?_
    rintro (hempty | ⟨p, hp, habove⟩)
    · simp at hempty
    · rw [← hpath] at habove
      rcases List.mem_append.mp hp with hp | hp
      · exact Path.not_above_of_lt (hlater p hp) habove
      · exact habove.2 (List.mem_singleton.mp hp ▸ rfl)
  next =>
    have hfile : Path.Above (rest.map .name) file.path ↔ rest <+: names := by
      rw [hpath, Path.above_concat]
      exact List.prefix_map_iff_of_injective fun _ _ => PathPart.name.inj
    split
    next hbegin =>
      exact iff_of_true rfl (.inr ⟨file, by simp, hfile.mpr hbegin⟩)
    next hbegin =>
      rw [h.folder]
      constructor
      · rintro (hempty | ⟨p, hp, habove⟩)
        · exact .inl hempty
        · exact .inr ⟨p, List.mem_append_left _ hp, habove⟩
      · rintro (hempty | ⟨p, hp, habove⟩)
        · exact .inl hempty
        · rcases List.mem_append.mp hp with hp | hp
          · exact .inr ⟨p, hp, habove⟩
          · exact absurd (hfile.mp (List.mem_singleton.mp hp ▸ habove)) hbegin

theorem Holds.put (hnone : ¬∃ p ∈ done, p.path.Above file.path) :
    Holds base (done ++ [file]) tree
      (grown.put (base ++ (names ++ [n])) (.file file.content.toUTF8)) where
  home := hopened.home.trans h.home
  file := h.file_put hpath hlater hopened hnone
  folder := h.folder_put hpath hlater hopened
  outside place hplace := by
    have hne : ∀ rest, place ≠ base ++ rest := fun rest heq =>
      hplace (heq ▸ List.prefix_append base rest)
    rw [FileTree.node?_put_of_ne _ _ (hne _), hopened.outside place fun q _ => hne q]
    exact h.outside place hplace

end Put

/-- The folders for a file can be made exactly if no file that was written before stands above it. -/
theorem Holds.folders_made (h : Holds base done tree written) (hopens : Opens written folder base)
    (hfits : file.Fits folder) (hpath : file.path = (names ++ [n]).map .name) :
    (¬(∃ p ∈ done, p.path.Above file.path) ∧ ∃ grown,
      (makeFolders (Path.foldersAround (joinPath folder file.spelling)) : Effect) written =
        (.ok (), grown) ∧ Opened base names written grown) ∨
      ((∃ p ∈ done, p.path.Above file.path) ∧ ∃ e,
        (makeFolders (Path.foldersAround (joinPath folder file.spelling)) : Effect) written =
          (.error e, written)) := by
  obtain ⟨around, outer, hfolders, hchain, houter, -, -⟩ :=
    FileTree.foldersAround_joinPath folder hpath hfits.separator hfits.dot
  have hshort : ∀ m ∈ names, m.utf8ByteSize ≤ FileTree.nameLimit :=
    fun m hm => hfits.short m (by rw [hpath]; simp [hm])
  have hname : ∀ s ∈ around ++ outer, FileTree.Nameable s := fun s hs =>
    hfits.nameable.of_prefix (Path.prefix_of_mem_foldersAround (hfolders ▸ hs))
  have hmake := FileTree.makes_chain hopens h.grounded houter hchain hshort hname
  rw [FileTree.Makes, h.clear_iff (n := n), ← hpath, not_not] at hmake
  rwa [hfolders]

/-- A file is written with its folders, unless making one of these fails and nothing changes. -/
theorem Holds.file_written (h : Holds base done tree written) (hopens : Opens written folder base)
    (hfits : file.Fits folder) (hlater : ∀ p ∈ done, compare p.path file.path = .lt) :
    (¬(∃ p ∈ done, p.path.Above file.path) ∧ ∃ later,
      (writeDeep (joinPath folder file.spelling) file.content : Effect) written = (.ok (), later) ∧
      Holds base (done ++ [file]) tree later ∧ Opens later folder base) ∨
      ((∃ p ∈ done, p.path.Above file.path) ∧ ∃ e,
        (makeFolders (Path.foldersAround (joinPath folder file.spelling)) : Effect) written =
          (.error e, written) ∧
        (writeDeep (joinPath folder file.spelling) file.content : Effect) written =
          (.error e, written)) := by
  obtain ⟨names, n, hpath⟩ := hfits.normal.exists_names
  rcases h.folders_made hopens hfits hpath with ⟨hnone, grown, hmake, hopened⟩ | ⟨hclash, e, hmake⟩
  · obtain ⟨around, outer, -, -, -, hleads, hend⟩ :=
      FileTree.foldersAround_joinPath folder hpath hfits.separator hfits.dot
    have hshort : ∀ m ∈ names ++ [n], m.utf8ByteSize ≤ FileTree.nameLimit :=
      fun m hm => hfits.short m (hpath ▸ List.mem_map_of_mem hm)
    have hlocate := FileTree.locate_of_leads (hopens.keeps hopened.keeps) hleads hfits.nameable
    rw [FileTree.follow_folders (fun m hm => hshort m (List.mem_append_left _ hm)) hopened.inside,
      hend] at hlocate
    have hfile := h.node?_ne_folder hpath hlater hopened
    have hwrite : grown.write (joinPath folder file.spelling) file.content.toUTF8 = _ :=
      FileTree.write_of_locate hlocate (fun m hm => hshort m (by simp_all)) hfile
    refine .inl ⟨hnone, _, ?_, h.put hpath hlater hopened hnone,
      (hopens.keeps hopened.keeps).keeps (Keeps.put hfile)⟩
    rw [writeDeep, bind_apply, hmake]
    dsimp only
    rw [FileTree.write_apply, hwrite]
  · refine .inr ⟨hclash, e, hmake, ?_⟩
    rw [writeDeep, bind_apply, hmake]
    rfl

end Step

section Run

variable {base : Location} {done rest : List PlannedFile} {tree written : FileTree}
  {folder : String}

/-- Files in ascending order are written one after the other until one has a file above it. -/
theorem Holds.files_written (h : Holds base done tree written) (hopens : Opens written folder base)
    (hsorted : Ascending (done ++ rest)) (hfits : ∀ file ∈ rest, file.Fits folder) :
    ((∀ file ∈ rest, ∀ p ∈ done ++ rest, ¬p.path.Above file.path) ∧ ∃ later,
      (writeAll folder rest : Effect) written = (.ok (), later) ∧
      Holds base (done ++ rest) tree later) ∨
      ∃ before file after e later, rest = before ++ file :: after ∧
        (∃ p ∈ done ++ before, p.path.Above file.path) ∧
        (writeAll folder before : Effect) written = (.ok (), later) ∧
        (makeFolders (Path.foldersAround (joinPath folder file.spelling)) : Effect) later =
          (.error e, later) ∧
        (writeAll folder rest : Effect) written = (.error e, later) := by
  induction rest generalizing done written with
  | nil => exact .inl ⟨by simp, written, rfl, by simpa using h⟩
  | cons file rest ih =>
    obtain ⟨hdone, hrest, hbetween⟩ := List.pairwise_append.mp hsorted
    have hlater : ∀ p ∈ done, compare p.path file.path = .lt :=
      fun p hp => hbetween p hp file List.mem_cons_self
    rcases h.file_written hopens (hfits file List.mem_cons_self) hlater with
      ⟨hnone, next, hwrite, hnext, hopensNext⟩ | ⟨hclash, e, hmake, hwrite⟩
    · have hall : done ++ file :: rest = done ++ [file] ++ rest := by simp
      rw [hall] at hsorted
      have hrun := ih hnext hopensNext hsorted fun f hf => hfits f (List.mem_cons_of_mem _ hf)
      have hstep : (writeAll folder (file :: rest) : Effect) written =
          (writeAll folder rest : Effect) next := by
        rw [writeAll, bind_apply, hwrite]
      rw [hstep, hall]
      rcases hrun with ⟨hnone', later, hwritten, hholds⟩ |
        ⟨before, last, after, e, later, rfl, hclash, hbefore, hmake, hfailed⟩
      · refine .inl ⟨?_, later, hwritten, hholds⟩
        intro f hf p hp
        rcases List.mem_cons.mp hf with rfl | hf
        · have hp : p ∈ done ∨ p = f ∨ p ∈ rest := by simpa [or_assoc] using hp
          rcases hp with hp | rfl | hp
          · exact fun habove => hnone ⟨p, hp, habove⟩
          · exact fun habove => habove.2 rfl
          · -- The files behind this one have later paths.
            exact Path.not_above_of_lt ((List.pairwise_cons.mp hrest).1 p hp)
        · exact hnone' f hf p hp
      · refine .inr ⟨file :: before, last, after, e, later, rfl, by simpa using hclash, ?_, hmake,
          hfailed⟩
        rw [writeAll, bind_apply, hwrite]
        exact hbefore
    · refine .inr ⟨[], file, rest, e, written, rfl, by simpa using hclash, rfl, hmake, ?_⟩
      rw [writeAll, bind_apply, hwrite]
      rfl

end Run

section Refusal

variable {folder spelling content : String} {file : PlannedFile} {files : List PlannedFile}

theorem writeDeep_ne_ok
    (hfail : ∀ tree grown : FileTree, tree.write spelling content.toUTF8 ≠ .ok grown)
    (tree : FileTree) : ((writeDeep spelling content : Effect) tree).1 ≠ .ok () := by
  rw [writeDeep, bind_apply]
  rcases (makeFolders (Path.foldersAround spelling) : Effect) tree with ⟨_ | _, between⟩
  · exact nofun
  · dsimp only
    rw [FileTree.write_apply]
    cases hwrite : between.write spelling content.toUTF8 with
    | ok grown => exact absurd hwrite (hfail between grown)
    | error e => exact nofun

theorem writeAll_ne_ok (hfile : file ∈ files)
    (hfail : ∀ tree grown : FileTree,
      tree.write (joinPath folder file.spelling) file.content.toUTF8 ≠ .ok grown)
    (tree : FileTree) : ((writeAll folder files : Effect) tree).1 ≠ .ok () := by
  induction files generalizing tree with
  | nil => cases hfile
  | cons first rest ih =>
    rw [writeAll, bind_apply]
    cases hwrite : ((writeDeep (joinPath folder first.spelling) first.content : Effect) tree).1 with
    | error e => exact nofun
    | ok _ =>
      rcases List.mem_cons.mp hfile with rfl | hfile
      · exact absurd hwrite (writeDeep_ne_ok hfail tree)
      · exact ih hfile _

end Refusal

namespace ExportPlan

/-- Writing a plan into an empty folder fails exactly if one of its paths is above another. It fails
while a folder is made, after the files before have been written. When it succeeds, the folder holds
the files of the plan, the folders that they need, and nothing else. -/
theorem writeTo_reproduces (files : List PlannedFile) {folder : String} {tree : FileTree}
    {base : Location} (hfits : ∀ file ∈ (ofFiles files).files, file.Fits folder)
    (hopens : Opens tree folder base) (hempty : ∀ rest, rest ≠ [] → tree.node? (base ++ rest) = none) :
    let plan := ofFiles files
    let run := (plan.writeTo folder : Effect) tree
    ((∃ e, run.1 = .error e) ↔ ∃ p ∈ plan.files, ∃ q ∈ plan.files, p.path.Above q.path) ∧
      (∀ e, run.1 = .error e → ∃ before file after, plan.files = before ++ file :: after ∧
        (∃ p ∈ before, p.path.Above file.path) ∧
        (writeAll folder before : Effect) tree = (.ok (), run.2) ∧
        (makeFolders (Path.foldersAround (joinPath folder file.spelling)) : Effect) run.2 =
          (.error e, run.2)) ∧
      (run.1 = .ok () → Holds base plan.files tree run.2) := by
  intro plan run
  have hsorted : Ascending ([] ++ plan.files) := (keyed_ofFiles files).ascending
  have hstart : Holds base [] tree tree := .of_empty hopens.isFolder hempty
  rcases hstart.files_written hopens hsorted hfits with ⟨hnone, later, hrun, hholds⟩ |
    ⟨before, file, after, e, later, hfiles, hclash, hbefore, hmake, hrun⟩
  · have hrun : run = (.ok (), later) := hrun
    rw [hrun]
    refine ⟨iff_of_false (by simp) ?_, fun e he => by simp at he, fun _ => hholds⟩
    rintro ⟨p, hp, q, hq, habove⟩
    exact hnone q hq p hp habove
  · have hrun : run = (.error e, later) := hrun
    obtain ⟨p, hp, habove⟩ := hclash
    rw [hrun]
    refine ⟨iff_of_true ⟨e, rfl⟩ ⟨p, ?_, file, ?_, habove⟩, ?_, fun h => by simp at h⟩
    · rw [hfiles]
      exact List.mem_append_left _ hp
    · rw [hfiles]
      simp
    · intro failure hfailure
      obtain rfl : e = failure := by simpa using hfailure
      exact ⟨before, file, after, hfiles, ⟨p, hp, habove⟩, hbefore, hmake⟩

/-- A folder is made for the one file, and both are there. -/
theorem writeTo_reproduces_script :
    ∃ written, ((ofFiles [⟨"scripts//A.gd", "extends Node"⟩, ⟨"setup.json", ""⟩]).writeTo "." :
        Effect) {} = (.ok (), written) ∧
      Holds [] [⟨"scripts//A.gd", "extends Node"⟩, ⟨"setup.json", ""⟩] {} written := by
  let files : List PlannedFile := [⟨"scripts//A.gd", "extends Node"⟩, ⟨"setup.json", ""⟩]
  have hfiles : (ofFiles files).files = files := rfl
  have hscript : PlannedFile.Fits "." ⟨"scripts//A.gd", "extends Node"⟩ :=
    .of_names ["scripts", "A.gd"] (by decide +kernel) (by decide) (by decide +kernel)
      (by decide +kernel) (by decide +kernel) ⟨by decide +kernel, by decide +kernel⟩
  have hsetup : PlannedFile.Fits "." ⟨"setup.json", ""⟩ :=
    .of_names ["setup.json"] (by decide +kernel) (by decide) (by decide +kernel)
      (by decide +kernel) (by decide +kernel) ⟨by decide +kernel, by decide +kernel⟩
  have hfits : ∀ file ∈ (ofFiles files).files, file.Fits "." := by
    rw [hfiles]
    intro file hfile
    rcases List.mem_pair.mp hfile with rfl | rfl
    · exact hscript
    · exact hsetup
  have hopens : Opens {} "." [] := ⟨by decide +kernel, by simp, rfl⟩
  have hempty : ∀ rest : Location, rest ≠ [] → ({} : FileTree).node? ([] ++ rest) = none := by
    intro rest hrest
    simp [FileTree.node?, hrest]
  obtain ⟨hfails, -, hholds⟩ := writeTo_reproduces files hfits hopens hempty
  rw [hfiles] at hfails hholds
  have hapart : ¬∃ p ∈ files, ∃ q ∈ files, p.path.Above q.path := by decide +kernel
  cases hrun : ((ofFiles files).writeTo "." : Effect) {} with
  | mk result written =>
    rw [hrun] at hfails hholds
    cases result with
    | error e => exact absurd (hfails.mp ⟨e, rfl⟩) hapart
    | ok _ => exact ⟨written, rfl, hholds rfl⟩

/-- A plan with a file of the spelling fails in an empty folder although no path is above another and
all folders around the file can be made. -/
def FailsApart (spelling : String) : Prop :=
  let plan := ofFiles [⟨spelling, ""⟩, ⟨"scripts/A.gd", "extends Node"⟩]
  (∀ file ∈ plan.files, file.path.Normal) ∧
    (¬∃ p ∈ plan.files, ∃ q ∈ plan.files, p.path.Above q.path) ∧
    ((makeFolders (Path.foldersAround (joinPath "." spelling)) : Effect) {}).1 = .ok () ∧
    ((plan.writeTo "." : Effect) {}).1 ≠ .ok ()

instance (spelling : String) : Decidable (FailsApart spelling) :=
  inferInstanceAs (Decidable (_ ∧ _))

theorem files_of_name {n : String} (hn : PathPart.IsName n) :
    let files := (ofFiles [⟨n, ""⟩, ⟨"scripts/A.gd", "extends Node"⟩]).files
    (∀ file ∈ files, file.path = [.name n] ∨ file.path = [.name "scripts", .name "A.gd"]) ∧
      ∃ file ∈ files, file.spelling = n := by
  intro files
  have hname : Path.ofText n = [.name n] := Path.ofText_name hn
  have hscript : Path.ofText "scripts/A.gd" = [.name "scripts", .name "A.gd"] := by decide +kernel
  have hspellings : ∀ file ∈ files, file.spelling = n ∨ file.spelling = "scripts/A.gd" := by
    intro file hfile
    obtain ⟨path, hget⟩ := mem_files.mp hfile
    obtain ⟨f, hf, hspelling⟩ := exists_spelling_of_ofFiles hget
    rcases List.mem_pair.mp hf with rfl | rfl
    · exact .inl hspelling
    · exact .inr hspelling
  constructor
  · intro file hfile
    rw [PlannedFile.path]
    rcases hspellings file hfile with h | h
    · exact .inl (h ▸ hname)
    · exact .inr (h ▸ hscript)
  · obtain ⟨file, hget⟩ : ∃ file, (ofFiles [⟨n, ""⟩, ⟨"scripts/A.gd", "extends Node"⟩]).byPath[
        ([.name n] : Path)]? = some file := by
      rw [← Option.isSome_iff_exists, ← Std.TreeMap.mem_iff_isSome_getElem?, mem_ofFiles]
      simp [PlannedFile.path, hname]
    have hfile : file ∈ files := mem_files.mpr ⟨_, hget⟩
    refine ⟨file, hfile, (hspellings file hfile).resolve_right fun h => ?_⟩
    have hpath : Path.ofText file.spelling = [.name n] := keyed_ofFiles _ _ _ hget
    simp [h, hscript] at hpath

/-- A file whose name is too long cannot be written although all folders around it can be made. -/
theorem failsApart_of_long {n : String} (hn : PathPart.IsName n)
    (hlong : FileTree.nameLimit < n.utf8ByteSize) : FailsApart n := by
  have hne : n ≠ "scripts" := by
    rintro rfl
    exact absurd hlong (by decide +kernel)
  obtain ⟨hpaths, file, hfile, hspelling⟩ := files_of_name hn
  refine ⟨?_, ?_, ?_, ?_⟩
  · intro file hfile
    rcases hpaths file hfile with h | h
    · exact h ▸ Path.normal_names (List.cons_ne_nil n [])
    · rw [h]
      decide
  · rintro ⟨p, hp, q, hq, habove⟩
    rcases hpaths p hp with h | h <;> rcases hpaths q hq with h' | h' <;>
      simp [h, h', Path.Above, hne] at habove
  · rw [Path.foldersAround_here hn]
    decide +kernel
  · refine writeAll_ne_ok hfile (fun tree grown => ?_) {}
    rw [hspelling]
    have hsteps : FileTree.stepsOf (joinPath "." n) = [.here] ++ [.name n] := FileTree.stepsOf_here hn
    exact FileTree.write_ne_ok_of_long hsteps hlong _

/-- A separator or a dot behind the last name, a character that no path can have and a name that is too
long keep a file from being written. -/
theorem failsApart_spellings :
    FailsApart "setup.json/" ∧ FailsApart "setup.json/." ∧ FailsApart "setup\x00.json" ∧
      FailsApart (String.ofList (List.replicate 256 'x')) := by
  refine ⟨by decide +kernel, by decide +kernel, by decide +kernel, ?_⟩
  exact failsApart_of_long (PathPart.isName_replicate (by decide) (by decide)) (by decide +kernel)

end ExportPlan

end Blueprint
