import Blueprint.Project.Writing
import Blueprint.Proofs.Files.Beginnings
import Blueprint.Proofs.Files.Growth

/-!
# Making the folders around a file

In a folder where everything stands in a folder again, the folders around a file can be made exactly if
no file stands where one of them has to be. Then they are all there afterwards and nothing else is
different. Otherwise the tree stays as it is.
-/

namespace Blueprint

namespace FileTree

variable {tree : FileTree} {place base : Location} {names : List String} {n : String}
  {steps rest : List PathPart}

section Following

theorem follow_name (hfolder : tree.node? place = some .folder)
    (hn : rest = [] ∨ n.utf8ByteSize ≤ nameLimit) :
    tree.follow place (.name n :: rest) = tree.follow (place ++ [n]) rest := by
  have hdemand : tree.demandFolder place = .ok () := demandFolder_eq_ok_iff.mpr hfolder
  have hlimit : ¬((!rest.isEmpty && nameLimit < n.utf8ByteSize) = true) := by
    rcases hn with rfl | hn
    · simp
    · simp [Nat.not_lt.mpr hn]
  rw [follow, hdemand]
  exact if_neg hlimit

theorem follow_missing (h : tree.node? place = none) :
    tree.follow place (.name n :: rest) = .error .missing := by
  rw [follow, demandFolder, h]
  rfl

theorem follow_notFolder {content : ByteArray} (h : tree.node? place = some (.file content)) :
    tree.follow place (.name n :: rest) = .error .notFolder := by
  rw [follow, demandFolder, h]
  rfl

/-- Names lead through folders to what they spell. -/
theorem follow_through (hshort : ∀ n ∈ names, n.utf8ByteSize ≤ nameLimit)
    (hfolders : ∀ q, q <+: names → q ≠ names → tree.node? (place ++ q) = some .folder) :
    tree.follow place (names.map .name ++ rest) = tree.follow (place ++ names) rest := by
  induction names generalizing place with
  | nil => simp
  | cons n names ih =>
    have hplace : tree.node? place = some .folder := by
      simpa using hfolders [] List.nil_prefix (by simp)
    have hinner : tree.follow (place ++ [n]) (names.map .name ++ rest) =
        tree.follow (place ++ [n] ++ names) rest := by
      refine ih (fun m hm => hshort m (List.mem_cons_of_mem n hm)) fun q hq hne => ?_
      have hq' : n :: q <+: n :: names := (List.prefix_cons_inj n).mpr hq
      simpa using hfolders (n :: q) hq' (by simpa using hne)
    rw [List.map_cons, List.cons_append,
      follow_name hplace (.inr (hshort n List.mem_cons_self)), hinner]
    simp

theorem follow_dots (h : steps.filter (· ≠ .here) = names.map .name) :
    tree.follow place (steps ++ [.name n]) = tree.follow place ((names ++ [n]).map .name) := by
  induction steps generalizing place names with
  | nil =>
    obtain rfl : names = [] := by simpa using h.symm
    rfl
  | cons step steps ih =>
    by_cases hstep : step = .here
    · subst hstep
      have hrest : steps.filter (· ≠ .here) = names.map .name := by simpa using h
      -- What follows asks for a folder at the same place.
      have hdemand : (do tree.demandFolder place
                         tree.follow place ((names ++ [n]).map .name)) =
          tree.follow place ((names ++ [n]).map .name) := by
        cases names <;> cases hfolder : tree.demandFolder place <;>
          simp [follow, hfolder, bind, Except.bind]
      rw [List.cons_append, follow, ← hdemand]
      exact congrArg _ (funext fun _ => ih hrest)
    · rw [List.filter_cons_of_pos (by simpa using hstep)] at h
      obtain ⟨m, names, rfl⟩ : ∃ m rest, names = m :: rest := by
        cases names with
        | nil => simp at h
        | cons m rest => exact ⟨m, rest, rfl⟩
      obtain ⟨rfl, hrest⟩ : step = .name m ∧ steps.filter (· ≠ .here) = names.map .name := by
        simpa using h
      have hmore : (steps ++ [PathPart.name n]).isEmpty = false := by simp
      have hmore' : ((names ++ [n]).map PathPart.name).isEmpty = false := by simp
      rw [List.cons_append, List.cons_append, List.map_cons, follow, follow, hmore, hmore',
        ih hrest]

theorem follow_append {front : List PathPart}
    (hfront : tree.follow place front = .ok base)
    (hshort : ∀ n ∈ base.getLast?, n.utf8ByteSize ≤ nameLimit) :
    tree.follow place (front ++ rest) = tree.follow base rest := by
  induction front generalizing place with
  | nil =>
    obtain rfl : place = base := by simpa [follow] using hfront
    rfl
  | cons step front ih =>
    cases step with
    | root => exact ih hfront
    | here | up =>
      obtain ⟨_, hfolder, hfront⟩ := bind_eq_ok_iff.mp hfront
      rw [List.cons_append, follow, hfolder]
      exact ih hfront
    | name n =>
      obtain ⟨_, hfolder, hfront⟩ := bind_eq_ok_iff.mp hfront
      have hplace := demandFolder_eq_ok_iff.mp hfolder
      split at hfront
      · cases hfront
      · rename_i hlimit
        have hn : n.utf8ByteSize ≤ nameLimit := by
          cases front with
          | nil =>
            obtain rfl : place ++ [n] = base := by simpa [follow] using hfront
            exact hshort n (by simp)
          | cons => simpa using hlimit
        rw [List.cons_append, follow_name hplace (.inr hn)]
        exact ih hfront

theorem follow_of_append_dots {dots : List PathPart} (hdots : ∀ step ∈ dots, step = .here)
    (h : tree.follow place (steps ++ dots) = .ok base) : tree.follow place steps = .ok base := by
  induction steps generalizing place with
  | nil =>
    induction dots with
    | nil => exact h
    | cons step dots ih =>
      obtain rfl := hdots step List.mem_cons_self
      obtain ⟨_, -, hrest⟩ := bind_eq_ok_iff.mp h
      exact ih (fun s hs => hdots s (List.mem_cons_of_mem _ hs)) hrest
  | cons step steps ih =>
    cases step with
    | root => exact ih h
    | here | up =>
      obtain ⟨u, hfolder, hrest⟩ := bind_eq_ok_iff.mp h
      exact bind_eq_ok_iff.mpr ⟨u, hfolder, ih hrest⟩
    | name n =>
      obtain ⟨u, hfolder, hrest⟩ := bind_eq_ok_iff.mp h
      refine bind_eq_ok_iff.mpr ⟨u, hfolder, ?_⟩
      split at hrest
      · cases hrest
      · rename_i hlimit
        rw [if_neg]
        · exact ih hrest
        · intro hlong
          refine hlimit ?_
          simp at hlong ⊢
          exact ⟨fun h _ => hlong.1 h, hlong.2⟩

theorem getLast?_of_follow {target : Location}
    (h : tree.follow place (steps ++ [.name n]) = .ok target) : target.getLast? = some n := by
  induction steps generalizing place with
  | nil =>
    obtain ⟨_, -, h⟩ := bind_eq_ok_iff.mp h
    obtain rfl : place ++ [n] = target := by simpa [follow] using h
    simp
  | cons step steps ih =>
    cases step with
    | root => exact ih h
    | here | up =>
      obtain ⟨_, -, h⟩ := bind_eq_ok_iff.mp h
      exact ih h
    | name m =>
      obtain ⟨_, -, h⟩ := bind_eq_ok_iff.mp h
      split at h
      · cases h
      · exact ih h

end Following

section Locating

/-- A spelling that a path can have. -/
structure Nameable (spelling : String) : Prop where
  noZero : Char.ofNat 0 ∉ spelling.toList
  short : spelling.utf8ByteSize ≤ spellingLimit

theorem Nameable.of_prefix {spelling beginning : String} (h : Nameable spelling)
    (hbegin : beginning.toList <+: spelling.toList) : Nameable beginning := by
  obtain ⟨rest, hrest⟩ := hbegin
  obtain rfl : beginning ++ String.ofList rest = spelling :=
    String.toList_inj.mp (by simpa using hrest)
  refine ⟨fun hzero => h.noZero (by simp [hzero]), ?_⟩
  have hshort := h.short
  rw [String.utf8ByteSize_append] at hshort
  exact Nat.le_of_add_right_le hshort

theorem locate_eq {spelling : String} (h : Nameable spelling) (hne : spelling ≠ "") :
    tree.locate spelling =
      (fun place => ⟨place, spelling.endsWith "/"⟩) <$> tree.follow tree.home (stepsOf spelling) := by
  have hzero : ¬spelling.toList.contains (Char.ofNat 0) = true := by
    simpa using h.noZero
  rw [locate, if_neg hzero, if_neg hne, if_neg (Nat.not_lt.mpr h.short)]
  rfl

theorem follow_of_locate {spelling : String} {target : Target}
    (h : tree.locate spelling = .ok target) :
    tree.follow tree.home (stepsOf spelling) = .ok target.place := by
  unfold locate at h
  split at h
  · cases h
  · split at h
    · cases h
    · split at h
      · cases h
      · obtain ⟨place, hfollow, hplace⟩ := bind_eq_ok_iff.mp h
        cases hplace
        exact hfollow

structure Opens (tree : FileTree) (folder : String) (base : Location) : Prop where
  follows : tree.follow tree.home (stepsOf folder) = .ok base
  short : ∀ n ∈ base.getLast?, n.utf8ByteSize ≤ nameLimit
  isFolder : tree.node? base = some .folder

theorem Opens.keeps {grown : FileTree} {folder : String} (h : Opens tree folder base)
    (hkeeps : Keeps tree grown) : Opens grown folder base where
  follows := by
    rw [hkeeps.home]
    exact hkeeps.follow h.follows
  short := h.short
  isFolder := hkeeps.folder base h.isFolder

variable {folder spelling : String}

theorem locate_of_leads (h : Opens tree folder base) (hleads : Leads (stepsOf folder) names spelling)
    (hname : Nameable spelling) :
    tree.locate spelling = (fun place => ⟨place, spelling.endsWith "/"⟩) <$>
      tree.follow base (names.map .name) := by
  obtain ⟨steps, last, hsteps, hnames⟩ := hleads
  have hne : spelling ≠ "" := by
    rintro rfl
    have hempty : stepsOf "" = [] :=
      @stepsOf_separated [] [] (by simp) (by simp)
    simp [hempty] at hsteps
  obtain ⟨before, hbefore, hlast⟩ : ∃ before, steps.filter (· ≠ .here) = before.map .name ∧
      names = before ++ [last] := by
    obtain ⟨before, final, rfl, hbefore, hfinal⟩ := List.append_eq_map_iff.mp hnames
    obtain ⟨n, rfl, hn⟩ := List.map_eq_singleton_iff.mp hfinal
    exact ⟨before, hbefore.symm, by rw [PathPart.name.inj hn]⟩
  have hfollow : tree.follow tree.home (stepsOf folder ++ (steps ++ [.name last])) =
      tree.follow base (steps ++ [.name last]) := follow_append h.follows h.short
  rw [follow_dots hbefore] at hfollow
  rw [locate_eq hname hne, hsteps, List.append_assoc, hfollow, hlast]

end Locating

section Grounded

/-- Below the location everything stands in a folder. -/
structure Grounded (tree : FileTree) (base : Location) : Prop where
  ground : tree.node? base = some .folder
  around : ∀ names n, tree.node? (base ++ (names ++ [n])) ≠ none →
    tree.node? (base ++ names) = some .folder

theorem Grounded.folder_of_prefix (h : Grounded tree base) {q : List String} (hq : q <+: names)
    (hne : q ≠ names) (hnode : tree.node? (base ++ names) ≠ none) :
    tree.node? (base ++ q) = some .folder := by
  induction names using List.reverseRecOn with
  | nil => exact absurd (List.prefix_nil.mp hq) hne
  | append_singleton names n ih =>
    have hfolder := h.around names n hnode
    rcases List.prefix_concat_iff.mp hq with rfl | hq
    · exact absurd rfl hne
    · by_cases hsame : q = names
      · exact hsame ▸ hfolder
      · exact ih hq hsame (by simp [hfolder])

/-- No file stands at the location or on the way from it by the names. -/
def Clear (tree : FileTree) (base : Location) (names : List String) : Prop :=
  ∀ q, q <+: names → ∀ content, tree.node? (base ++ q) ≠ some (.file content)

theorem Clear.of_prefix {q : List String} (h : Clear tree base names) (hq : q <+: names) :
    Clear tree base q :=
  fun r hr => h r (hr.trans hq)

theorem Clear.concat (h : Clear tree base names)
    (hlast : ∀ content, tree.node? (base ++ (names ++ [n])) ≠ some (.file content)) :
    Clear tree base (names ++ [n]) := by
  intro q hq
  rcases List.prefix_concat_iff.mp hq with rfl | hq
  · exact hlast
  · exact h q hq

theorem clear_of_folders (h : ∀ q, q <+: names → tree.node? (base ++ q) = some .folder) :
    Clear tree base names := by
  intro q hq content
  simp [h q hq]

theorem Grounded.exists_missing (h : Grounded tree base) (hclear : Clear tree base names)
    (hnone : tree.node? (base ++ names) = none) :
    ∃ q, q <+: names ∧ tree.node? (base ++ q) = none ∧
      ∀ r, r <+: q → r ≠ q → tree.node? (base ++ r) = some .folder := by
  induction names using List.reverseRecOn with
  | nil => simp [h.ground] at hnone
  | append_singleton names n ih =>
    have hbefore : names <+: names ++ [n] := List.prefix_append names [n]
    cases hnode : tree.node? (base ++ names) with
    | none =>
      obtain ⟨q, hq, hmissing⟩ := ih (hclear.of_prefix hbefore) hnode
      exact ⟨q, hq.trans hbefore, hmissing⟩
    | some node =>
      cases node with
      | file content => exact absurd hnode (hclear names hbefore content)
      | folder =>
        refine ⟨names ++ [n], List.prefix_rfl, hnone, fun r hr hne => ?_⟩
        have hr : r <+: names := (List.prefix_concat_iff.mp hr).resolve_left hne
        by_cases hsame : r = names
        · exact hsame ▸ hnode
        · exact h.folder_of_prefix hr hsame (by simp [hnode])

variable (hshort : ∀ n ∈ names, n.utf8ByteSize ≤ nameLimit)

include hshort

theorem follow_folders (hfolders : ∀ q, q <+: names → tree.node? (base ++ q) = some .folder) :
    tree.follow base ((names ++ [n]).map .name) = .ok (base ++ (names ++ [n])) := by
  rw [List.map_append, follow_through hshort fun q hq _ => hfolders q hq]
  have hlast : tree.follow (base ++ names) [.name n] = tree.follow (base ++ names ++ [n]) [] :=
    follow_name (hfolders names List.prefix_rfl) (.inl rfl)
  rw [follow, List.append_assoc] at hlast
  exact hlast

theorem exists_follow_eq {q : List String} (hq : q <+: names)
    (hfolders : ∀ r, r <+: q → r ≠ q → tree.node? (base ++ r) = some .folder) :
    ∃ m more, tree.follow base ((names ++ [n]).map .name) =
      tree.follow (base ++ q) (.name m :: more) := by
  obtain ⟨rest, rfl⟩ := hq
  have hfirst : ∀ n ∈ q, n.utf8ByteSize ≤ nameLimit :=
    fun n hn => hshort n (List.mem_append_left rest hn)
  obtain ⟨m, more, hmore⟩ : ∃ m more, rest ++ [n] = m :: more :=
    List.exists_cons_of_ne_nil (by simp)
  refine ⟨m, more.map .name, ?_⟩
  rw [List.append_assoc, hmore, List.map_append, follow_through hfirst hfolders, List.map_cons]

theorem Grounded.follow_eq_missing (h : Grounded tree base) (hclear : Clear tree base names)
    (hnone : tree.node? (base ++ names) = none) :
    tree.follow base ((names ++ [n]).map .name) = .error .missing := by
  obtain ⟨q, hq, hmissing, hfolders⟩ := h.exists_missing hclear hnone
  obtain ⟨m, more, hfollow⟩ := exists_follow_eq hshort hq hfolders (n := n)
  rw [hfollow, follow_missing hmissing]

theorem Grounded.follow_eq_notFolder (h : Grounded tree base) {q : List String} {content : ByteArray}
    (hq : q <+: names) (hfile : tree.node? (base ++ q) = some (.file content)) :
    tree.follow base ((names ++ [n]).map .name) = .error .notFolder := by
  have hfolders : ∀ r, r <+: q → r ≠ q → tree.node? (base ++ r) = some .folder :=
    fun r hr hne => h.folder_of_prefix hr hne (by simp [hfile])
  obtain ⟨m, more, hfollow⟩ := exists_follow_eq hshort hq hfolders (n := n)
  rw [hfollow, follow_notFolder hfile]

end Grounded

/-- What changes a tree and can fail. -/
abbrev Effect := StateM FileTree (Except FileError Unit)

section Making

variable {grown : FileTree} {folder spelling : String} {around : List String} {e : FileError}

theorem makeFolders_cons_ok (h : tree.makeFolder spelling = .ok grown) :
    (makeFolders (spelling :: around) : Effect) tree = (.ok (), grown) := by
  rw [makeFolders, bind_apply, makeFolder_apply, h]
  rfl

theorem makeFolders_cons_error (h : tree.makeFolder spelling = .error e) (hne : e ≠ .missing) :
    (makeFolders (spelling :: around) : Effect) tree =
      (if tree.isFolder spelling then .ok () else .error e, tree) := by
  rw [makeFolders, bind_apply, makeFolder_apply, h]
  cases e with
  | missing => exact absurd rfl hne
  | _ => rfl

theorem makeFolders_cons_missing {between : FileTree}
    (h : tree.makeFolder spelling = .error .missing)
    (haround : (makeFolders around : Effect) tree = (.ok (), between))
    (hbetween : between.makeFolder spelling = .ok grown) :
    (makeFolders (spelling :: around) : Effect) tree = (.ok (), grown) := by
  rw [makeFolders, bind_apply, makeFolder_apply, h]
  dsimp only
  rw [bind_apply, haround]
  dsimp only
  rw [bind_apply, makeFolder_apply, hbetween]
  rfl

theorem demandName_eq_ok {target : Target}
    (h : ∀ n ∈ target.place.getLast?, n.utf8ByteSize ≤ nameLimit) : target.demandName = .ok () := by
  rw [Target.demandName]
  split
  next name hlast => exact if_neg (Nat.not_lt.mpr (h name hlast))
  next => rfl

theorem makeFolder_of_locate {target : Target} (h : tree.locate spelling = .ok target)
    (hshort : ∀ n ∈ target.place.getLast?, n.utf8ByteSize ≤ nameLimit) :
    tree.makeFolder spelling =
      if tree.node? target.place = none then .ok (tree.put target.place .folder)
      else .error .alreadyExists := by
  rw [makeFolder, h]
  simp only [bind, Except.bind, demandName_eq_ok hshort]
  cases hnode : tree.node? target.place <;> simp

theorem isFolder_of_locate {target : Target} (h : tree.locate spelling = .ok target) :
    tree.isFolder spelling = (tree.node? target.place).any FileNode.isFolder := by
  rw [isFolder, h]

theorem write_of_locate {content : ByteArray} (h : tree.locate spelling = .ok ⟨place, false⟩)
    (hshort : ∀ n ∈ place.getLast?, n.utf8ByteSize ≤ nameLimit)
    (hnode : tree.node? place ≠ some .folder) :
    tree.write spelling content = .ok (tree.put place (.file content)) := by
  have hfile : ¬(false || (tree.node? place).any FileNode.isFolder) = true := by
    cases hplace : tree.node? place with
    | none => simp
    | some node =>
      cases node with
      | folder => exact absurd hplace hnode
      | file => simp [FileNode.isFolder]
  have hdemand : Target.demandName ⟨place, false⟩ = .ok () := demandName_eq_ok hshort
  rw [write, h]
  refine (if_neg hfile).trans ?_
  rw [hdemand]
  rfl

/-- No tree takes a file with a name that is too long. -/
theorem write_ne_ok_of_long (hsteps : stepsOf spelling = steps ++ [.name n])
    (hlong : nameLimit < n.utf8ByteSize) (content : ByteArray) :
    tree.write spelling content ≠ .ok grown := by
  intro h
  obtain ⟨target, htarget, h⟩ := bind_eq_ok_iff.mp h
  have hlast : target.place.getLast? = some n :=
    getLast?_of_follow (hsteps ▸ follow_of_locate htarget)
  split at h
  · cases h
  · obtain ⟨_, hname, -⟩ := bind_eq_ok_iff.mp h
    simp [Target.demandName, hlast, hlong] at hname

theorem makeFolder_of_locate_error (h : tree.locate spelling = .error e) :
    tree.makeFolder spelling = .error e ∧ tree.isFolder spelling = false := by
  rw [makeFolder, isFolder, h]
  exact ⟨rfl, rfl⟩

end Making

/-- The tree has a folder at the location and at each beginning of the names from there, and is
otherwise the same. -/
structure Opened (base : Location) (names : List String) (tree grown : FileTree) : Prop where
  home : grown.home = tree.home
  inside : ∀ q, q <+: names → grown.node? (base ++ q) = some .folder
  outside : ∀ place, (∀ q, q <+: names → place ≠ base ++ q) → grown.node? place = tree.node? place

namespace Opened

variable {grown : FileTree}

theorem refl (h : ∀ q, q <+: names → tree.node? (base ++ q) = some .folder) :
    Opened base names tree tree :=
  ⟨rfl, h, fun _ _ => rfl⟩

theorem keeps (h : Opened base names tree grown) : Keeps tree grown where
  home := h.home
  folder place hplace := by
    by_cases hinside : ∃ q, q <+: names ∧ place = base ++ q
    · obtain ⟨q, hq, rfl⟩ := hinside
      exact h.inside q hq
    · rw [h.outside place fun q hq heq => hinside ⟨q, hq, heq⟩, hplace]

theorem append_concat_ne {q : List String} (hq : q <+: names) (base : Location) (n : String) :
    base ++ (names ++ [n]) ≠ base ++ q := by
  intro heq
  have hlength := hq.length_le
  rw [← List.append_cancel_left heq, List.length_append, List.length_singleton] at hlength
  omega

theorem node?_concat (h : Opened base names tree grown) (n : String) :
    grown.node? (base ++ (names ++ [n])) = tree.node? (base ++ (names ++ [n])) :=
  h.outside _ fun _ hq => append_concat_ne hq base n

theorem put (h : Opened base names tree grown) :
    Opened base (names ++ [n]) tree (grown.put (base ++ (names ++ [n])) .folder) where
  home := h.home
  inside q hq := by
    rcases List.prefix_concat_iff.mp hq with rfl | hq
    · exact node?_put_self _ _ (by simp)
    · rw [node?_put_of_ne _ _ (append_concat_ne hq base n).symm, h.inside q hq]
  outside place hplace := by
    rw [node?_put_of_ne _ _ (hplace _ List.prefix_rfl)]
    exact h.outside place fun q hq => hplace q (hq.trans (List.prefix_append names [n]))

theorem node?_put (h : Opened base names tree grown) (n : String) (content : ByteArray)
    (rest : List String) :
    (grown.put (base ++ (names ++ [n])) (.file content)).node? (base ++ rest) =
      if rest = names ++ [n] then some (.file content)
      else if rest <+: names then some .folder
      else tree.node? (base ++ rest) := by
  by_cases hself : rest = names ++ [n]
  · rw [if_pos hself, hself, node?_put_self _ _ (by simp)]
  · have hne : base ++ rest ≠ base ++ (names ++ [n]) := by simpa using hself
    rw [if_neg hself, node?_put_of_ne _ _ hne]
    by_cases hbegin : rest <+: names
    · rw [if_pos hbegin, h.inside rest hbegin]
    · rw [if_neg hbegin]
      refine h.outside _ fun q hq heq => hbegin ?_
      rwa [List.append_cancel_left heq]

end Opened

section Chains

/-- Making the folders puts one at each beginning of the names. If a file stands in the place of one,
it fails and changes nothing. -/
def Makes (tree : FileTree) (base : Location) (names spellings : List String) : Prop :=
  (Clear tree base names ∧ ∃ grown,
      (makeFolders spellings : Effect) tree = (.ok (), grown) ∧ Opened base names tree grown) ∨
    (¬Clear tree base names ∧ ∃ e, (makeFolders spellings : Effect) tree = (.error e, tree))

variable {folder spelling : String} {around outer : List String}

theorem makeFolders_outer (hopens : Opens tree folder base) (houter : Outer folder outer)
    (hname : ∀ s ∈ outer, Nameable s) :
    (makeFolders outer : Effect) tree = (.ok (), tree) := by
  rcases houter with ⟨-, rfl⟩ | ⟨beginning, shorter, dots, rfl, hne, hdots, hsteps⟩
  · rfl
  · have hfollow := hopens.follows
    rw [hsteps] at hfollow
    have hlocate : tree.locate beginning = _ := locate_eq (hname beginning List.mem_cons_self) hne
    rw [follow_of_append_dots hdots hfollow] at hlocate
    have hmake := makeFolder_of_locate hlocate hopens.short
    rw [if_neg (by simp [hopens.isFolder])] at hmake
    rw [makeFolders_cons_error hmake (by decide), isFolder_of_locate hlocate, hopens.isFolder]
    rfl

section Next

variable (hshort : ∀ m ∈ names ++ [n], m.utf8ByteSize ≤ nameLimit) (hname : Nameable spelling)
  (hopens : Opens tree folder base) (hleads : Leads (stepsOf folder) (names ++ [n]) spelling)

include hshort hname hopens hleads

/-- Where everything around it is a folder, a folder is made, or it is there, or a file is. -/
theorem makes_inside (hfolders : ∀ q, q <+: names → tree.node? (base ++ q) = some .folder) :
    Makes tree base (names ++ [n]) (spelling :: around) := by
  have hbefore : ∀ m ∈ names, m.utf8ByteSize ≤ nameLimit :=
    fun m hm => hshort m (List.mem_append_left [n] hm)
  have hlocate := locate_of_leads hopens hleads hname
  rw [follow_folders hbefore hfolders] at hlocate
  have hmake := makeFolder_of_locate hlocate fun m hm => hshort m (by simp_all)
  cases htarget : tree.node? (base ++ (names ++ [n])) with
  | none =>
    rw [if_pos htarget] at hmake
    exact .inl ⟨(clear_of_folders hfolders).concat (by simp [htarget]), _,
      makeFolders_cons_ok hmake, (Opened.refl hfolders).put⟩
  | some node =>
    rw [if_neg (by simp [htarget])] at hmake
    have hrun : (makeFolders (spelling :: around) : Effect) tree = _ :=
      makeFolders_cons_error hmake (by decide)
    rw [isFolder_of_locate hlocate, htarget] at hrun
    cases node with
    | file content =>
      exact .inr ⟨fun hclear => hclear _ List.prefix_rfl content htarget, _, hrun⟩
    | folder =>
      have hall : ∀ q, q <+: names ++ [n] → tree.node? (base ++ q) = some .folder := by
        intro q hq
        rcases List.prefix_concat_iff.mp hq with rfl | hq
        · exact htarget
        · exact hfolders q hq
      exact .inl ⟨clear_of_folders hall, tree, hrun, .refl hall⟩

variable (hground : Grounded tree base)

include hground

/-- Where the folder around it is missing, a folder is made after the folders around. -/
theorem makes_missing (hclear : Clear tree base names) (hnode : tree.node? (base ++ names) = none)
    (haround : Makes tree base names around) :
    Makes tree base (names ++ [n]) (spelling :: around) := by
  have hbefore : ∀ m ∈ names, m.utf8ByteSize ≤ nameLimit :=
    fun m hm => hshort m (List.mem_append_left [n] hm)
  obtain ⟨-, between, hrun, hopened⟩ := haround.resolve_right fun h => h.1 hclear
  have hlocate := locate_of_leads hopens hleads hname
  rw [hground.follow_eq_missing hbefore hclear hnode] at hlocate
  have hmissing := (makeFolder_of_locate_error hlocate).1
  have htarget : tree.node? (base ++ (names ++ [n])) = none := by
    by_contra hsome
    simp [hground.around names n hsome] at hnode
  have hlater := locate_of_leads (hopens.keeps hopened.keeps) hleads hname
  rw [follow_folders hbefore hopened.inside] at hlater
  have hmake := makeFolder_of_locate hlater fun m hm => hshort m (by simp_all)
  rw [if_pos ((hopened.node?_concat n).trans htarget)] at hmake
  exact .inl ⟨hclear.concat (by simp [htarget]), _,
    makeFolders_cons_missing hmissing hrun hmake, hopened.put⟩

theorem makes_blocked (hblocked : ¬Clear tree base names) :
    Makes tree base (names ++ [n]) (spelling :: around) := by
  have hbefore : ∀ m ∈ names, m.utf8ByteSize ≤ nameLimit :=
    fun m hm => hshort m (List.mem_append_left [n] hm)
  obtain ⟨q, hq, content, hfile⟩ : ∃ q, q <+: names ∧ ∃ content,
      tree.node? (base ++ q) = some (.file content) := by
    simpa [Clear] using hblocked
  have hlocate := locate_of_leads hopens hleads hname
  rw [hground.follow_eq_notFolder hbefore hq hfile] at hlocate
  obtain ⟨hmake, hfolder⟩ := makeFolder_of_locate_error hlocate
  refine .inr ⟨fun hclear => hblocked (hclear.of_prefix (List.prefix_append names [n])),
    .notFolder, ?_⟩
  rw [makeFolders_cons_error hmake (by decide), hfolder]
  rfl

end Next

/-- The folders around a file can be made exactly if no file stands in the place of one. -/
theorem makes_chain (hopens : Opens tree folder base) (hground : Grounded tree base)
    (houter : Outer folder outer) (hchain : Chain (stepsOf folder) names around)
    (hshort : ∀ n ∈ names, n.utf8ByteSize ≤ nameLimit) (hname : ∀ s ∈ around ++ outer, Nameable s) :
    Makes tree base names (around ++ outer) := by
  induction hchain with
  | nil =>
    have hself : ∀ q, q <+: ([] : List String) → tree.node? (base ++ q) = some .folder := by
      intro q hq
      rw [List.prefix_nil.mp hq, List.append_nil]
      exact hground.ground
    exact .inl ⟨clear_of_folders hself, tree, makeFolders_outer hopens houter hname, .refl hself⟩
  | @cons names around n spelling hchain hleads ih =>
    have haround : Makes tree base names (around ++ outer) :=
      ih (fun m hm => hshort m (List.mem_append_left [n] hm))
        fun s hs => hname s (List.mem_cons_of_mem _ hs)
    have hspelling : Nameable spelling := hname spelling (by simp)
    by_cases hclear : Clear tree base names
    · cases hnode : tree.node? (base ++ names) with
      | none => exact makes_missing hshort hspelling hopens hleads hground hclear hnode haround
      | some node =>
        cases node with
        | file content => exact absurd hnode (hclear names List.prefix_rfl content)
        | folder =>
          refine makes_inside hshort hspelling hopens hleads fun q hq => ?_
          by_cases hsame : q = names
          · exact hsame ▸ hnode
          · exact hground.folder_of_prefix hq hsame (by simp [hnode])
    · exact makes_blocked hshort hspelling hopens hleads hground hclear

end Chains

end FileTree

end Blueprint
