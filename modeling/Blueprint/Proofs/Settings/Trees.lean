import Blueprint.Settings.Tree

/-!
# Merging into setting trees

What a merge leaves at a name is what was merged there last, and it touches no other name.
-/

namespace Blueprint.SettingTree

variable {tree v : SettingTree} {key name : String}

section Replace

variable {α : Type} {entries : List (String × α)} {a : α}

theorem lookup_replace_of_ne (h : name ≠ key) :
    (entries.map fun entry => if entry.1 = key then (key, a) else entry).lookup name =
      entries.lookup name := by
  have hne : (name == key) = false := by simpa using h
  induction entries with
  | nil => rfl
  | cons entry rest ih =>
    obtain ⟨k, b⟩ := entry
    by_cases hk : k = key
    · subst hk
      simp only [List.map_cons, if_true, List.lookup_cons, hne, ih]
    · simp only [List.map_cons, if_neg hk, List.lookup_cons, ih]

theorem lookup_replace_self (h : (entries.lookup key).isSome) :
    (entries.map fun entry => if entry.1 = key then (key, a) else entry).lookup key = some a := by
  induction entries with
  | nil => simp at h
  | cons entry rest ih =>
    obtain ⟨k, b⟩ := entry
    by_cases hk : k = key
    · simp [hk]
    · have hne : (key == k) = false := by simpa using Ne.symm hk
      rw [List.lookup_cons, hne] at h
      simpa [List.lookup_cons, hk, hne] using ih h

end Replace

@[simp] theorem get?_table (entries : List (String × SettingTree)) (name : String) :
    (table entries).get? name = entries.lookup name := rfl

@[simp] theorem lookup_entries (tree : SettingTree) (name : String) :
    tree.entries.lookup name = tree.get? name := rfl

@[simp] theorem get?_put_self (tree : SettingTree) (key : String) (v : SettingTree) :
    (tree.put key v).get? key = some v := by
  unfold put
  split
  · next h => exact lookup_replace_self h
  · next h =>
    rw [Option.not_isSome_iff_eq_none] at h
    simp [List.lookup_append, h]

theorem get?_put_of_ne (h : name ≠ key) : (tree.put key v).get? name = tree.get? name := by
  unfold put
  split
  · exact lookup_replace_of_ne h
  · have hne : (name == key) = false := by simpa using h
    simp [List.lookup_append, List.lookup_cons, hne]

theorem get?_merge_of_ne (h : name ≠ foldKey key) :
    (tree.merge key v).get? name = tree.get? name := by
  cases v <;> simp [merge, get?_put_of_ne h]

@[simp] theorem get?_merge_scalar (tree : SettingTree) (key text : String) :
    (tree.merge key (scalar text)).get? (foldKey key) = some (scalar text) := by
  simp [merge]

@[simp] theorem get?_merge_table (tree : SettingTree) (key : String)
    (entries : List (String × SettingTree)) :
    (tree.merge key (table entries)).get? (foldKey key) =
      some (mergeEntries ((tree.get? (foldKey key)).getD (table [])) entries) := by
  simp [merge]

def text? : SettingTree → Option String
  | scalar text => some text
  | _ => none

theorem text?_eq_some_iff {text : String} : v.text? = some text ↔ v = scalar text := by
  cases v <;> simp [text?]

def textsUnder (name : String) (entries : List (String × SettingTree)) : List String :=
  entries.filterMap fun (key, v) => if foldKey key = name then v.text? else none

def isTable : SettingTree → Bool
  | table _ => true
  | _ => false

theorem isTable_iff : v.isTable ↔ ∃ entries, v = table entries := by
  cases v <;> simp [isTable]

/-- Of the texts under a name the last one counts. -/
theorem get?_mergeEntries {entries : List (String × SettingTree)} {text : String}
    (h : ∀ entry ∈ entries, foldKey entry.1 = name → entry.2.text?.isSome)
    (htree : tree.get? name = some (scalar text)) :
    (mergeEntries tree entries).get? name =
      some (scalar ((textsUnder name entries).getLastD text)) := by
  induction entries generalizing tree text with
  | nil => simpa [mergeEntries, textsUnder] using htree
  | cons entry rest ih =>
    obtain ⟨key, v⟩ := entry
    have hrest : ∀ entry ∈ rest, foldKey entry.1 = name → entry.2.text?.isSome :=
      fun entry hmem => h entry (List.mem_cons_of_mem _ hmem)
    rw [mergeEntries]
    by_cases hkey : foldKey key = name
    · obtain ⟨other, hother⟩ := Option.isSome_iff_exists.mp (h (key, v) List.mem_cons_self hkey)
      obtain rfl := text?_eq_some_iff.mp hother
      subst hkey
      rw [ih hrest (get?_merge_scalar tree key other)]
      simp only [textsUnder, List.filterMap_cons, if_true, text?, List.getLastD_cons]
    · rw [ih hrest ((get?_merge_of_ne (Ne.symm hkey)).trans htree)]
      simp only [textsUnder, List.filterMap_cons, if_neg hkey]

/-! ### Merging at a path -/

section Path

variable {first : String} {rest path : List Step} {t : SettingTree}

theorem get?_of_mergeAt?_ne (h : mergeAt? v (.key first :: rest) tree = some t)
    (hname : name ≠ foldKey first) : t.get? name = tree.get? name := by
  cases rest with
  | nil =>
    obtain rfl : merge (table tree.entries) first v = t := by simpa [mergeAt?] using h
    simp [get?_merge_of_ne hname]
  | cons step rest =>
    obtain ⟨inner, -, rfl⟩ : ∃ inner, _ ∧ (table tree.entries).put (foldKey first) inner = t := by
      simpa [mergeAt?, Option.bind_eq_some_iff] using h
    simp [get?_put_of_ne hname]

theorem get?_of_mergeAt?_nested (h : mergeAt? v (.key first :: rest) tree = some t)
    (hrest : rest ≠ []) :
    ∃ inner, mergeAt? v rest ((tree.get? (foldKey first)).getD empty) = some inner ∧
      t.get? (foldKey first) = some inner := by
  obtain ⟨step, rest, rfl⟩ := List.exists_cons_of_ne_nil hrest
  obtain ⟨inner, hinner, rfl⟩ : ∃ inner,
      mergeAt? v (step :: rest) ((tree.get? (foldKey first)).getD empty) = some inner ∧
        (table tree.entries).put (foldKey first) inner = t := by
    simpa [mergeAt?, Option.bind_eq_some_iff] using h
  exact ⟨inner, hinner, get?_put_self _ _ _⟩

theorem get?_of_mergeAt?_scalar {text : String} (h : mergeAt? v (.key first :: rest) tree = some t)
    (hv : foldKey first = name → rest = [] ∧ v.text?.isSome)
    (htree : tree.get? name = some (scalar text)) :
    t.get? name =
      some (scalar ((if foldKey first = name then v.text?.toList else []).getLastD text)) := by
  by_cases hfirst : foldKey first = name
  · obtain ⟨rfl, hscalar⟩ := hv hfirst
    obtain ⟨other, hother⟩ := Option.isSome_iff_exists.mp hscalar
    obtain rfl := text?_eq_some_iff.mp hother
    obtain rfl : merge (table tree.entries) first (scalar other) = t := by simpa [mergeAt?] using h
    subst hfirst
    simp [text?]
  · rw [if_neg hfirst, get?_of_mergeAt?_ne h (Ne.symm hfirst)]
    exact htree

/-- Each index on the path leads to a place in its list. The place is counted from the start, or from
the end for a negative index, and may be behind the last item, but not out of reach. -/
def Reaches : List Step → SettingTree → Prop
  | [], _ => True
  | .key name :: path, tree => Reaches path ((tree.get? (foldKey name)).getD empty)
  | .index i :: path, tree =>
    ∃ place : Nat, (place : Int) = (if i < 0 then tree.items.length + i else i) ∧
      place < placeLimit ∧ Reaches path (tree.items.getD place empty)

theorem place?_eq_some_iff {length place : Nat} {i : Int} :
    place? length i = some place ↔
      (place : Int) = (if i < 0 then length + i else i) ∧ place < placeLimit := by
  simp only [place?, Option.ite_none_right_eq_some, Option.some.injEq]
  generalize (if i < 0 then (length : Int) + i else i) = target
  omega

/-- Merging goes through exactly where the indices lead to places. -/
theorem isSome_mergeAt?_iff : (mergeAt? v path tree).isSome = true ↔ Reaches path tree := by
  induction path generalizing tree with
  | nil => simp [mergeAt?, Reaches]
  | cons step rest ih =>
    cases step with
    | key name =>
      rw [Reaches, ← ih]
      cases rest with
      | nil => simp [mergeAt?]
      | cons next rest =>
        simp only [mergeAt?, Option.bind_eq_bind]
        cases mergeAt? v (next :: rest) ((tree.get? (foldKey name)).getD empty) <;> simp
    | index i =>
      simp only [Reaches, ← ih, ← and_assoc, ← place?_eq_some_iff, mergeAt?, Option.bind_eq_bind]
      cases place? tree.items.length i with
      | none => simp
      | some place =>
        simp only [Option.bind_some, Option.some.injEq, exists_eq_left']
        cases mergeAt? v rest (tree.items.getD place empty) <;> simp

end Path

end Blueprint.SettingTree
