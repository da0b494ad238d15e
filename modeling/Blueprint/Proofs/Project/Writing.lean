import Mathlib.Data.List.Forall2
import Blueprint.Project.Writing
import Blueprint.Proofs.Files.Growth

/-!
# What writing a plan leaves behind

Making the folders around a file adds folders and nothing else, whether or not it succeeds. When all
files of a plan are written, each of them stands at the location that its spelling names, the last of
those that share a location, and apart from folders around them the tree is as it was.
-/

namespace Blueprint

open FileTree (Adds Keeps)

variable {tree written : FileTree} {folder spelling content : String} {folders : List String}

section Folders

theorem FileTree.adds_makeFolder (tree : FileTree) (folder : String) :
    Adds [folder] tree
      ((FileAccess.makeFolder folder : StateM FileTree (Except FileError Unit)) tree).2 := by
  rw [FileTree.makeFolder_apply]
  cases h : tree.makeFolder folder with
  | ok changed => exact .of_makeFolder h
  | error e => exact .refl _ tree

theorem present_apply_snd (folder : String) (made : Except FileError Unit) (tree : FileTree) :
    (makeFolders.present (m := StateM FileTree) folder made tree).2 = tree := by
  cases made <;> rfl

theorem makeFolders_adds (folders : List String) (tree : FileTree) :
    Adds folders tree ((makeFolders folders : StateM FileTree (Except FileError Unit)) tree).2 := by
  induction folders generalizing tree with
  | nil => exact .refl _ tree
  | cons folder around ih =>
    have hself : [folder] ⊆ folder :: around := by simp
    have hfirst := (tree.adds_makeFolder folder).mono hself
    rw [makeFolders, bind_apply]
    generalize (FileAccess.makeFolder folder : StateM FileTree (Except FileError Unit)) tree = made
      at hfirst ⊢
    obtain ⟨result, first⟩ := made
    cases result with
    | ok _ => exact hfirst
    | error e =>
      cases e with
      | missing =>
        -- The folders around are made first, and then the folder is tried once more.
        have haround := hfirst.trans ((ih first).mono (List.subset_cons_self folder around))
        dsimp only
        rw [bind_apply]
        generalize (makeFolders around : StateM FileTree (Except FileError Unit)) first = made
          at haround ⊢
        obtain ⟨result, second⟩ := made
        cases result with
        | error e => exact haround
        | ok _ =>
          dsimp only
          rw [bind_apply, present_apply_snd]
          exact haround.trans ((second.adds_makeFolder folder).mono hself)
      | _ =>
        dsimp only
        rw [present_apply_snd]
        exact hfirst

end Folders

/-- A file that is written with the folders it needs is put into a tree that has these folders. -/
theorem writeDeep_eq_ok
    (h : (writeDeep spelling content : StateM FileTree (Except FileError Unit)) tree =
      (.ok (), written)) :
    ∃ between place, Adds (Path.foldersAround spelling) tree between ∧
      between.locate spelling = .ok ⟨place, false⟩ ∧ between.node? place ≠ some .folder ∧
      written = between.put place (.file content.toUTF8) := by
  have hadds := makeFolders_adds (Path.foldersAround spelling) tree
  rw [writeDeep, bind_apply] at h
  generalize (makeFolders (Path.foldersAround spelling) :
    StateM FileTree (Except FileError Unit)) tree = made at hadds h
  obtain ⟨result, between⟩ := made
  cases result with
  | error e => cases h
  | ok _ =>
    dsimp only at h
    rw [FileTree.write_apply] at h
    cases hwrite : between.write spelling content.toUTF8 with
    | error e =>
      rw [hwrite] at h
      cases h
    | ok changed =>
      rw [hwrite] at h
      obtain rfl : changed = written := congrArg Prod.snd h
      obtain ⟨place, hlocate, hnode, rfl⟩ := FileTree.write_eq_ok hwrite
      exact ⟨between, place, hadds, hlocate, hnode, rfl⟩

def lastContent? (files : List PlannedFile) (places : List Location) (place : Location) :
    Option String :=
  (places.zip (files.map (·.content))).reverse.lookup place

section LastContent

variable {file : PlannedFile} {files : List PlannedFile} {place first : Location}
  {places : List Location}

theorem lastContent?_cons :
    lastContent? (file :: files) (first :: places) place =
      (lastContent? files places place).or (if place = first then some file.content else none) := by
  by_cases hplace : place = first
  · simp [lastContent?, List.lookup_append, hplace]
  · simp [lastContent?, List.lookup_append, List.lookup_cons, beq_false_of_ne hplace, hplace]

theorem lastContent?_eq_none_iff (h : files.length = places.length) :
    lastContent? files places place = none ↔ place ∉ places := by
  have hfst : (places.zip (files.map (·.content))).map Prod.fst = places :=
    List.map_fst_zip (by simp [h])
  rw [lastContent?, List.lookup_eq_none_iff]
  conv_rhs => rw [← hfst]
  simp only [List.mem_reverse, List.mem_map, not_exists, not_and, bne_iff_ne]
  exact forall₂_congr fun _ _ => ⟨Ne.symm, Ne.symm⟩

end LastContent

/-- The files stand at these locations below the folder, and the last of those at one location is what
is found there. Nothing else has come into the tree but folders around the files, and no folder has
been lost. -/
structure Stored (folder : String) (files : List PlannedFile) (places : List Location)
    (tree written : FileTree) : Prop where
  keeps : Keeps tree written
  located : List.Forall₂ (fun file place =>
    written.locate (joinPath folder file.spelling) = .ok ⟨place, false⟩) files places
  file : ∀ place content, lastContent? files places place = some content →
    written.node? place = some (.file content.toUTF8)
  other : ∀ place ∉ places, written.node? place = tree.node? place ∨
    tree.node? place = none ∧ written.node? place = some .folder ∧ ∃ file ∈ files,
      ∃ around ∈ Path.foldersAround (joinPath folder file.spelling), written.Names around place

namespace Stored

variable {files : List PlannedFile} {places : List Location} {file : PlannedFile} {place : Location}
  {between : FileTree}

theorem nil (folder : String) (tree : FileTree) : Stored folder [] [] tree tree where
  keeps := .refl tree
  located := .nil
  file _ _ h := by simp [lastContent?] at h
  other _ _ := .inl rfl

theorem cons (hadds : Adds (Path.foldersAround (joinPath folder file.spelling)) tree between)
    (hlocate : between.locate (joinPath folder file.spelling) = .ok ⟨place, false⟩)
    (hnode : between.node? place ≠ some .folder)
    (hrest : Stored folder files places (between.put place (.file file.content.toUTF8)) written) :
    Stored folder (file :: files) (place :: places) tree written where
  keeps := hadds.keeps.trans ((Keeps.put hnode).trans hrest.keeps)
  located := .cons (((Keeps.put hnode).trans hrest.keeps).locate hlocate) hrest.located
  file other content hcontent := by
    rw [lastContent?_cons, Option.or_eq_some_iff] at hcontent
    rcases hcontent with hlater | ⟨hnone, hfirst⟩
    · exact hrest.file other content hlater
    · obtain ⟨rfl, rfl⟩ : other = place ∧ file.content = content := by simpa using hfirst
      have hself := between.node?_put_self (.file file.content.toUTF8)
        (FileTree.ne_nil_of_node?_ne hnode)
      have hlast : other ∉ places :=
        (lastContent?_eq_none_iff hrest.located.length_eq).mp hnone
      rcases hrest.other other hlast with heq | ⟨hmissing, -⟩
      · exact heq.trans hself
      · rw [hself] at hmissing
        cases hmissing
  other other hother := by
    obtain ⟨hne, hlast⟩ : other ≠ place ∧ other ∉ places := by simpa using hother
    have hput := between.node?_put_of_ne (.file file.content.toUTF8) hne
    have hkeeps := (Keeps.put hnode).trans hrest.keeps
    rcases hrest.other other hlast with heq | ⟨hnone, hfolder, later, hlater, hnames⟩
    · rw [hput] at heq
      rcases hadds.node other with hsame | ⟨hnone, hfolder, around, haround, hnames⟩
      · exact .inl (heq.trans hsame)
      · exact .inr ⟨hnone, heq.trans hfolder, file, List.mem_cons_self, around, haround,
          hnames.keeps hkeeps⟩
    · rw [hput] at hnone
      rcases hadds.node other with hsame | ⟨-, hsome, -⟩
      · exact .inr ⟨hsame ▸ hnone, hfolder, later, List.mem_cons_of_mem _ hlater, hnames⟩
      · rw [hsome] at hnone
        cases hnone

end Stored

theorem writeAll_eq_ok {files : List PlannedFile}
    (h : (writeAll folder files : StateM FileTree (Except FileError Unit)) tree = (.ok (), written)) :
    ∃ places, Stored folder files places tree written := by
  induction files generalizing tree with
  | nil =>
    obtain rfl : tree = written := congrArg Prod.snd h
    exact ⟨[], .nil folder tree⟩
  | cons file files ih =>
    rw [writeAll, bind_apply] at h
    generalize hfirst : (writeDeep (joinPath folder file.spelling) file.content :
      StateM FileTree (Except FileError Unit)) tree = made at h
    obtain ⟨result, first⟩ := made
    cases result with
    | error e => cases h
    | ok _ =>
      obtain ⟨between, place, hadds, hlocate, hnode, rfl⟩ := writeDeep_eq_ok hfirst
      obtain ⟨places, hrest⟩ := ih h
      exact ⟨place :: places, .cons hadds hlocate hnode hrest⟩

end Blueprint
