import Blueprint.Files.Tree
import Blueprint.Proofs.Effects

/-!
# How a file tree grows

No operation removes anything from a file tree or turns a folder into a file. A spelling that names a
location in a tree therefore names the same location in every later tree. What one operation does to
the tree is told by what then stands at each location.
-/

namespace Blueprint.FileTree

variable {tree grown changed : FileTree} {place other : Location} {node : FileNode}
  {spelling : String}

section Nodes

@[simp] theorem node?_root (tree : FileTree) : tree.node? [] = some .folder := by
  simp [node?]

theorem ne_nil_of_node?_ne (h : tree.node? place ≠ some .folder) : place ≠ [] := by
  rintro rfl
  exact h (node?_root tree)

theorem node?_put_self (tree : FileTree) (node : FileNode) (h : place ≠ []) :
    (tree.put place node).node? place = some node := by
  simp [node?, put, h]

theorem lookup_filter_of_ne {nodes : List (Location × FileNode)} (h : other ≠ place) :
    (nodes.filter (·.1 ≠ place)).lookup other = nodes.lookup other := by
  induction nodes with
  | nil => rfl
  | cons entry nodes ih =>
    by_cases hfirst : entry.1 = place
    · have hother : (other == entry.1) = false := beq_false_of_ne (hfirst ▸ h)
      rw [List.filter_cons_of_neg (by simp [hfirst]), ih, List.lookup_cons, hother]
    · rw [List.filter_cons_of_pos (by simp [hfirst]), List.lookup_cons, List.lookup_cons, ih]

theorem node?_put_of_ne (tree : FileTree) (node : FileNode) (h : other ≠ place) :
    (tree.put place node).node? other = tree.node? other := by
  rw [node?, node?, put, List.lookup_cons, beq_false_of_ne h, lookup_filter_of_ne h]

end Nodes

theorem demandFolder_eq_ok_iff {u : Unit} :
    tree.demandFolder place = .ok u ↔ tree.node? place = some .folder := by
  rw [demandFolder]
  split <;> simp_all

/-- The folders of the one tree are folders of the other, and relative paths start at the same one. -/
structure Keeps (tree grown : FileTree) : Prop where
  home : grown.home = tree.home
  folder : ∀ place, tree.node? place = some .folder → grown.node? place = some .folder

namespace Keeps

theorem refl (tree : FileTree) : Keeps tree tree :=
  ⟨rfl, fun _ h => h⟩

theorem trans {first second third : FileTree} (h : Keeps first second) (h' : Keeps second third) :
    Keeps first third :=
  ⟨h'.home.trans h.home, fun place hplace => h'.folder place (h.folder place hplace)⟩

theorem put (hnode : tree.node? place ≠ some .folder) : Keeps tree (tree.put place node) where
  home := rfl
  folder other hother := by
    have hne : other ≠ place := fun heq => hnode (heq ▸ hother)
    rwa [node?_put_of_ne _ _ hne]

theorem demandFolder (h : Keeps tree grown) {u : Unit} (hplace : tree.demandFolder place = .ok u) :
    grown.demandFolder place = .ok () :=
  demandFolder_eq_ok_iff.mpr (h.folder place (demandFolder_eq_ok_iff.mp hplace))

/-- Steps that can be followed in a tree lead to the same location in a tree with more folders. -/
theorem follow (h : Keeps tree grown) {steps : List PathPart} {target : Location}
    (hsteps : tree.follow place steps = .ok target) : grown.follow place steps = .ok target := by
  -- Apart from the root, a step goes on from a location that must be a folder.
  induction steps generalizing place with
  | nil => exact hsteps
  | cons step rest ih =>
    cases step with
    | root => exact ih hsteps
    | here =>
      obtain ⟨_, hplace, hrest⟩ := bind_eq_ok_iff.mp hsteps
      exact bind_eq_ok_iff.mpr ⟨(), h.demandFolder hplace, ih hrest⟩
    | up =>
      obtain ⟨_, hplace, hrest⟩ := bind_eq_ok_iff.mp hsteps
      exact bind_eq_ok_iff.mpr ⟨(), h.demandFolder hplace, ih hrest⟩
    | name n =>
      obtain ⟨_, hplace, hrest⟩ := bind_eq_ok_iff.mp hsteps
      refine bind_eq_ok_iff.mpr ⟨(), h.demandFolder hplace, ?_⟩
      split at hrest
      · cases hrest
      · exact (if_neg ‹_›).trans (ih hrest)

/-- A spelling that names a location in a tree names it in a tree with more folders. -/
theorem locate (h : Keeps tree grown) {target : Target}
    (htarget : tree.locate spelling = .ok target) : grown.locate spelling = .ok target := by
  rw [FileTree.locate] at htarget ⊢
  split at htarget
  · cases htarget
  · split at htarget
    · cases htarget
    · split at htarget
      · cases htarget
      · obtain ⟨place, hfollow, hplace⟩ := bind_eq_ok_iff.mp htarget
        rw [if_neg ‹_›, if_neg ‹_›, if_neg ‹_›, h.home]
        exact bind_eq_ok_iff.mpr ⟨place, h.follow hfollow, hplace⟩

end Keeps

section Operations

theorem makeFolder_eq_ok (h : tree.makeFolder spelling = .ok changed) :
    ∃ target, tree.locate spelling = .ok target ∧ tree.node? target.place = none ∧
      changed = tree.put target.place .folder := by
  obtain ⟨target, htarget, h⟩ := bind_eq_ok_iff.mp h
  obtain ⟨_, -, h⟩ := bind_eq_ok_iff.mp h
  split at h
  · cases h
    exact ⟨target, htarget, ‹_›, rfl⟩
  · cases h

theorem write_eq_ok {content : ByteArray} (h : tree.write spelling content = .ok changed) :
    ∃ place, tree.locate spelling = .ok ⟨place, false⟩ ∧ tree.node? place ≠ some .folder ∧
      changed = tree.put place (.file content) := by
  obtain ⟨⟨place, asFolder⟩, htarget, h⟩ := bind_eq_ok_iff.mp h
  split at h
  · cases h
  · rename_i hfile
    obtain ⟨_, -, h⟩ := bind_eq_ok_iff.mp h
    simp only [Bool.or_eq_true, not_or] at hfile
    refine ⟨place, ?_, ?_, ?_⟩
    · simpa [hfile.1] using htarget
    · intro hfolder
      simp [hfolder, FileNode.isFolder] at hfile
    · cases h
      rfl

end Operations

section Effects

theorem read_apply (tree : FileTree) (spelling : String) :
    (FileAccess.read spelling : StateM FileTree (Except FileError ByteArray)) tree =
      (tree.read spelling, tree) := rfl

theorem makeFolder_apply (tree : FileTree) (spelling : String) :
    (FileAccess.makeFolder spelling : StateM FileTree (Except FileError Unit)) tree =
      match tree.makeFolder spelling with
      | .ok changed => (.ok (), changed)
      | .error e => (.error e, tree) := rfl

theorem write_apply (tree : FileTree) (spelling : String) (content : ByteArray) :
    (FileAccess.write spelling content : StateM FileTree (Except FileError Unit)) tree =
      match tree.write spelling content with
      | .ok changed => (.ok (), changed)
      | .error e => (.error e, tree) := rfl

end Effects

def Names (tree : FileTree) (spelling : String) (place : Location) : Prop :=
  ∃ target, tree.locate spelling = .ok target ∧ target.place = place

theorem Names.keeps (h : tree.Names spelling place) (hkeeps : Keeps tree grown) :
    grown.Names spelling place := by
  obtain ⟨target, htarget, hplace⟩ := h
  exact ⟨target, hkeeps.locate htarget, hplace⟩

/-- All that the other tree has in addition are folders that these spellings name. -/
structure Adds (folders : List String) (tree grown : FileTree) : Prop where
  home : grown.home = tree.home
  node : ∀ place, grown.node? place = tree.node? place ∨
    tree.node? place = none ∧ grown.node? place = some .folder ∧
      ∃ folder ∈ folders, grown.Names folder place

namespace Adds

variable {folders more : List String} {first second third : FileTree}

theorem refl (folders : List String) (tree : FileTree) : Adds folders tree tree :=
  ⟨rfl, fun _ => .inl rfl⟩

theorem keeps (h : Adds folders tree grown) : Keeps tree grown where
  home := h.home
  folder place hplace := by
    rcases h.node place with heq | ⟨hnone, -, -⟩
    · rw [heq, hplace]
    · rw [hplace] at hnone
      cases hnone

theorem mono (h : Adds folders tree grown) (hsubset : folders ⊆ more) : Adds more tree grown where
  home := h.home
  node place := by
    rcases h.node place with heq | ⟨hnone, hfolder, folder, hmem, hnames⟩
    · exact .inl heq
    · exact .inr ⟨hnone, hfolder, folder, hsubset hmem, hnames⟩

theorem trans (h : Adds folders first second) (h' : Adds folders second third) :
    Adds folders first third where
  home := h'.home.trans h.home
  node place := by
    rcases h'.node place with heq' | ⟨hnone', hfolder', hnames'⟩
    · rcases h.node place with heq | ⟨hnone, hfolder, folder, hmem, hnames⟩
      · exact .inl (heq'.trans heq)
      · exact .inr ⟨hnone, heq'.trans hfolder, folder, hmem, hnames.keeps h'.keeps⟩
    · rcases h.node place with heq | ⟨-, hfolder, -⟩
      · exact .inr ⟨heq ▸ hnone', hfolder', hnames'⟩
      · rw [hfolder] at hnone'
        cases hnone'

theorem of_makeFolder (h : tree.makeFolder spelling = .ok changed) :
    Adds [spelling] tree changed := by
  obtain ⟨target, htarget, hnone, rfl⟩ := makeFolder_eq_ok h
  have hnode : tree.node? target.place ≠ some .folder := by simp [hnone]
  refine ⟨rfl, fun place => ?_⟩
  by_cases hplace : place = target.place
  · rw [hplace]
    exact .inr ⟨hnone, node?_put_self _ _ (ne_nil_of_node?_ne hnode), spelling,
      List.mem_singleton_self _, target, (Keeps.put hnode).locate htarget, rfl⟩
  · exact .inl (node?_put_of_ne _ _ hplace)

end Adds

end Blueprint.FileTree
