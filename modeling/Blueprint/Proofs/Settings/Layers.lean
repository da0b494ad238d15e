import Blueprint.Proofs.Settings.Keys
import Blueprint.Proofs.Settings.Trees
import Blueprint.Settings.Basic

/-!
# What a layer gives for each setting

A layer gives a setting the texts that its entries have for it, whether the entry is a table of the
section or a dotted key, in any spelling of the names. Where the sections are tables and the settings
are texts, merging the layer sets each setting to the last of its texts and keeps the others.
-/

namespace Blueprint

open SettingTree (foldKey textsUnder Step)

inductive Setting where
  | level | indent | scriptsDir | autoloadsDir | manifest | autoloadRegistry
  deriving DecidableEq

namespace Setting

def heading : Setting → String
  | .level => "logging"
  | .indent => "emit"
  | .scriptsDir | .autoloadsDir | .manifest | .autoloadRegistry => "export"

def name : Setting → String
  | .level => "level"
  | .indent => "indent"
  | .scriptsDir => "scripts_dir"
  | .autoloadsDir => "autoloads_dir"
  | .manifest => "manifest"
  | .autoloadRegistry => "autoload_registry"

def key (x : Setting) : String :=
  x.heading ++ "." ++ x.name

def of (s : Settings) : Setting → String
  | .level => s.level
  | .indent => s.indent
  | .scriptsDir => s.layout.scriptsDir
  | .autoloadsDir => s.layout.autoloadsDir
  | .manifest => s.layout.manifest
  | .autoloadRegistry => s.layout.autoloadRegistry

def all : List Setting :=
  [.level, .indent, .scriptsDir, .autoloadsDir, .manifest, .autoloadRegistry]

theorem mem_all (x : Setting) : x ∈ all := by
  cases x <;> decide

instance (p : Setting → Prop) [DecidablePred p] : Decidable (∀ x, p x) :=
  decidable_of_iff (∀ x ∈ all, p x) ⟨fun h x => h x x.mem_all, fun h x _ => h x⟩

instance (p : Setting → Prop) [DecidablePred p] : Decidable (∃ x, p x) :=
  decidable_of_iff (∃ x ∈ all, p x) ⟨fun ⟨x, _, h⟩ => ⟨x, h⟩, fun ⟨x, h⟩ => ⟨x, x.mem_all, h⟩⟩

theorem isName_heading (x : Setting) : SettingKey.IsName x.heading.toList := by
  cases x <;> decide

theorem isName_name (x : Setting) : SettingKey.IsName x.name.toList := by
  cases x <;> decide

theorem key_eq_iff (x y : Setting) : x.key = y.key ↔ x.heading = y.heading ∧ x.name = y.name := by
  cases x <;> cases y <;> decide

def textsAt (x : Setting) (v : SettingTree) : SettingKey → List String
  | [.key outer] => if foldKey outer = x.heading then textsUnder x.name v.entries else []
  | [.key outer, .key inner] =>
    if foldKey outer = x.heading ∧ foldKey inner = x.name then v.text?.toList else []
  | _ => []

theorem textsAt_of_ne {x : Setting} {v : SettingTree} {outer : String} {path : List Step}
    (h : foldKey outer ≠ x.heading) : x.textsAt v (.key outer :: path) = [] := by
  unfold textsAt
  split <;> simp_all

def textsOfEntry (x : Setting) (entry : String × SettingTree) : List String :=
  (SettingKey.ofText? entry.1).elim [] (x.textsAt entry.2)

end Setting

/-- The entries of a layer. A file that does not exist has none, unless it must be there. -/
def SettingsLayer.entries? (layer : SettingsLayer) : Option (List (String × SettingTree)) :=
  match layer.source with
  | none => if layer.required then none else some []
  | some source => Settings.ofSource? source

/-- The texts that a layer has for a setting, under whatever spelling of its key. -/
def Setting.textsOf (x : Setting) (layer : SettingsLayer) : List String :=
  (layer.entries?.getD []).flatMap x.textsOfEntry

def Setting.textOf? (x : Setting) (o : Override) : Option String :=
  if foldKey o.key = x.key then some o.value else none

/-- A value at a path leaves the sections tables and the settings texts: no path leads into a section
as into a list, or beyond a setting. -/
def SettingTree.Orderly (v : SettingTree) : SettingKey → Prop
  | [.key outer] =>
    ∀ x : Setting, foldKey outer = x.heading →
      v.isTable ∧ ∀ entry ∈ v.entries, foldKey entry.1 = x.name → entry.2.text?.isSome
  | .key outer :: .key inner :: path =>
    ∀ x : Setting, foldKey outer = x.heading → foldKey inner = x.name → path = [] ∧ v.text?.isSome
  | .key outer :: .index _ :: _ => ∀ x : Setting, foldKey outer ≠ x.heading
  | _ => True

instance (v : SettingTree) : DecidablePred v.Orderly
  | [.key outer] => inferInstanceAs (Decidable (∀ x : Setting, foldKey outer = x.heading →
      v.isTable ∧ ∀ entry ∈ v.entries, foldKey entry.1 = x.name → entry.2.text?.isSome))
  | .key outer :: .key inner :: path =>
    inferInstanceAs (Decidable (∀ x : Setting, foldKey outer = x.heading → foldKey inner = x.name →
      path = [] ∧ v.text?.isSome))
  | .key outer :: .index _ :: _ =>
    inferInstanceAs (Decidable (∀ x : Setting, foldKey outer ≠ x.heading))
  | [] | .index _ :: _ => inferInstanceAs (Decidable True)

namespace SettingsLayer

/-- A layer can be read, and in it the sections are tables and the settings are texts. -/
def Orderly (layer : SettingsLayer) : Prop :=
  ∃ entries ∈ layer.entries?, ∀ entry ∈ entries, ∀ path ∈ SettingKey.ofText? entry.1,
    entry.2.Orderly path

instance (layer : SettingsLayer) : Decidable layer.Orderly :=
  inferInstanceAs (Decidable (∃ entries ∈ layer.entries?, ∀ entry ∈ entries,
    ∀ path ∈ SettingKey.ofText? entry.1, entry.2.Orderly path))

end SettingsLayer

namespace Settings

def entriesOf (layers : List SettingsLayer) : List (String × SettingTree) :=
  layers.flatMap fun layer => layer.entries?.getD []

/-- Each index in a key leads to a place in its list, as the entries before leave the list. -/
inductive EntriesInReach : List (String × SettingTree) → SettingTree → Prop
  | nil {tree : SettingTree} : EntriesInReach [] tree
  | cons {key : String} {v tree : SettingTree} {rest : List (String × SettingTree)}
      (hreach : ∀ path ∈ SettingKey.ofText? key, SettingTree.Reaches path tree)
      (hrest : ∀ next, setEntry tree key v = .ok next → EntriesInReach rest next) :
      EntriesInReach ((key, v) :: rest) tree

/-- Each index in a key of the layers leads to a place when they are merged into what is built in. -/
def InReach (layers : List SettingsLayer) : Prop :=
  EntriesInReach (entriesOf layers) (tree {})

end Settings

/-! ### The last of several texts -/

section Lists

variable {α β : Type}

theorem getLastD_append (s t : List α) (a : α) :
    (s ++ t).getLastD a = t.getLastD (s.getLastD a) := by
  induction s generalizing a with
  | nil => rfl
  | cons b s ih => rw [List.cons_append, List.getLastD_cons, List.getLastD_cons, ih]

theorem eq_nil_of_getLastD_ne {s : List α} {a b : α} (h : s.getLastD a ≠ s.getLastD b) :
    s = [] := by
  cases s with
  | nil => rfl
  | cons c s => exact absurd rfl h

theorem filterMap_cons_append (f : α → Option β) (a : α) (s : List α) :
    (a :: s).filterMap f = (f a).toList ++ s.filterMap f := by
  cases h : f a <;> simp [h]

end Lists

/-! ### Merging -/

def Covers (tree : SettingTree) (texts : Setting → String) : Prop :=
  ∀ x : Setting, ∃ inner, tree.get? x.heading = some inner ∧
    inner.get? x.name = some (.scalar (texts x))

namespace Settings

variable {tree v : SettingTree} {texts : Setting → String}

theorem covers_tree (s : Settings) : Covers s.tree fun x => x.of s := by
  intro x
  cases x <;> exact ⟨_, rfl, rfl⟩

theorem setAt_of_not_reaches {path : SettingKey} (h : ¬SettingTree.Reaches path tree) :
    setAt tree path v = .error .noPlace := by
  rw [← SettingTree.isSome_mergeAt?_iff, Option.not_isSome_iff_eq_none] at h
  rw [setAt, h]

/-- One merge at a path: each setting gets the last text that the value has for it. -/
theorem covers_setAt {first : String} {rest : List Step}
    (hreach : SettingTree.Reaches (.key first :: rest) tree)
    (horderly : v.Orderly (.key first :: rest)) (hcovers : Covers tree texts) :
    ∃ t, setAt tree (.key first :: rest) v = .ok t ∧
      Covers t fun x => (x.textsAt v (.key first :: rest)).getLastD (texts x) := by
  obtain ⟨t, ht⟩ : ∃ t, SettingTree.mergeAt? v (.key first :: rest) tree = some t :=
    Option.isSome_iff_exists.mp (SettingTree.isSome_mergeAt?_iff.mpr hreach)
  refine ⟨t, by rw [setAt, ht], fun x => ?_⟩
  obtain ⟨old, hold, htext⟩ := hcovers x
  by_cases hfirst : foldKey first = x.heading
  · rw [← hfirst] at hold ⊢
    match rest, horderly with
    | [], horderly =>
      obtain ⟨htable, htexts⟩ := horderly x hfirst
      obtain ⟨entries, rfl⟩ := SettingTree.isTable_iff.mp htable
      obtain rfl : (SettingTree.table tree.entries).merge first (.table entries) = t := by
        simpa [SettingTree.mergeAt?] using ht
      refine ⟨SettingTree.mergeEntries old entries, by simp [hold], ?_⟩
      refine (SettingTree.get?_mergeEntries htexts htext).trans ?_
      simp [Setting.textsAt, hfirst]
    | .key second :: path, horderly =>
      obtain ⟨inner, hinner, hnew⟩ := SettingTree.get?_of_mergeAt?_nested ht (by simp)
      rw [hold, Option.getD_some] at hinner
      have hinnerText := SettingTree.get?_of_mergeAt?_scalar hinner (horderly x hfirst) htext
      refine ⟨inner, hnew, hinnerText.trans ?_⟩
      cases path with
      | nil => simp [Setting.textsAt, hfirst]
      | cons step path =>
        have hsecond : foldKey second ≠ x.name := fun h => by simpa using (horderly x hfirst h).1
        simp [Setting.textsAt, hsecond]
    | .index _ :: _, horderly => exact absurd hfirst (horderly x)
  · simp only [Setting.textsAt_of_ne hfirst, List.getLastD_nil]
    exact ⟨old, (SettingTree.get?_of_mergeAt?_ne ht (Ne.symm hfirst)).trans hold, htext⟩

theorem foldKey_ne_heading {key : String} (h : SettingKey.ofText? key = none) (x : Setting) :
    foldKey key ≠ x.heading := by
  intro hkey
  rw [SettingKey.ofText?_of_name x.isName_heading hkey] at h
  cases h

theorem covers_setEntry {key : String}
    (hreach : ∀ path ∈ SettingKey.ofText? key, SettingTree.Reaches path tree)
    (horderly : ∀ path ∈ SettingKey.ofText? key, v.Orderly path) (hcovers : Covers tree texts) :
    ∃ t, setEntry tree key v = .ok t ∧
      Covers t fun x => (x.textsOfEntry (key, v)).getLastD (texts x) := by
  unfold setEntry Setting.textsOfEntry
  cases hkey : SettingKey.ofText? key with
  | none =>
    refine ⟨tree.merge key v, rfl, fun x => ?_⟩
    rw [SettingTree.get?_merge_of_ne (Ne.symm (foldKey_ne_heading hkey x))]
    exact hcovers x
  | some path =>
    obtain ⟨first, rest, rfl⟩ := SettingKey.exists_key_of_ofText? hkey
    exact covers_setAt (hreach _ hkey) (horderly _ hkey) hcovers

theorem addLayer_of_entries? {layer : SettingsLayer} {entries : List (String × SettingTree)}
    (h : layer.entries? = some entries) :
    addLayer tree layer = entries.foldlM (fun tree (key, v) => setEntry tree key v) tree := by
  unfold SettingsLayer.entries? at h
  unfold addLayer
  cases hsource : layer.source with
  | none =>
    simp only [hsource] at h
    split at h
    · cases h
    · next hrequired =>
      cases h
      exact if_neg hrequired
  | some source =>
    simp only [hsource] at h
    simp only [h]

theorem foldlM_addLayer {layers : List SettingsLayer}
    (h : ∀ layer ∈ layers, layer.entries?.isSome = true) :
    layers.foldlM addLayer tree =
      (entriesOf layers).foldlM (fun tree (key, v) => setEntry tree key v) tree := by
  induction layers generalizing tree with
  | nil => rfl
  | cons layer rest ih =>
    obtain ⟨hlayer, hrest⟩ := List.forall_mem_cons.mp h
    obtain ⟨entries, hentries⟩ := Option.isSome_iff_exists.mp hlayer
    rw [List.foldlM_cons, addLayer_of_entries? hentries, entriesOf, List.flatMap_cons, hentries,
      Option.getD_some, List.foldlM_append]
    exact bind_congr fun next => ih hrest

theorem setEntry_of_not_reaches {key : String}
    (h : ¬∀ path ∈ SettingKey.ofText? key, SettingTree.Reaches path tree) :
    setEntry tree key v = .error .noPlace := by
  unfold setEntry
  cases hkey : SettingKey.ofText? key with
  | none => simp [hkey] at h
  | some path =>
    refine setAt_of_not_reaches fun hreach => h fun other hother => ?_
    obtain rfl := Option.some.inj (hkey.symm.trans hother)
    exact hreach

/-- Entries whose indices lead to places set each setting to the last of their texts for it, and the
first index without a place ends the merging. -/
theorem covers_foldlM {entries : List (String × SettingTree)}
    (horderly : ∀ entry ∈ entries, ∀ path ∈ SettingKey.ofText? entry.1, entry.2.Orderly path)
    (hcovers : Covers tree texts) :
    (EntriesInReach entries tree →
      ∃ t, entries.foldlM (fun tree (key, v) => setEntry tree key v) tree = .ok t ∧
        Covers t fun x => (entries.flatMap x.textsOfEntry).getLastD (texts x)) ∧
    (¬EntriesInReach entries tree →
      entries.foldlM (fun tree (key, v) => setEntry tree key v) tree = .error .noPlace) := by
  induction entries generalizing tree texts with
  | nil => exact ⟨fun _ => ⟨tree, rfl, hcovers⟩, fun h => absurd .nil h⟩
  | cons entry rest ih =>
    obtain ⟨key, v⟩ := entry
    obtain ⟨hentry, hrest⟩ := List.forall_mem_cons.mp horderly
    by_cases hreach : ∀ path ∈ SettingKey.ofText? key, SettingTree.Reaches path tree
    · obtain ⟨next, hnext, hcovers⟩ := covers_setEntry hreach hentry hcovers
      have hcons : EntriesInReach ((key, v) :: rest) tree ↔ EntriesInReach rest next := by
        refine ⟨fun | .cons _ hrest => hrest next hnext, fun h => .cons hreach fun other hother => ?_⟩
        obtain rfl := Except.ok.inj (hnext.symm.trans hother)
        exact h
      obtain ⟨hin, hout⟩ := ih hrest hcovers
      simp only [List.foldlM_cons, hnext, hcons, List.flatMap_cons, getLastD_append]
      exact ⟨hin, hout⟩
    · refine ⟨fun | .cons hentry _ => absurd hentry hreach, fun _ => ?_⟩
      simp only [List.foldlM_cons, setEntry_of_not_reaches hreach]
      rfl

theorem exists_entries_of_covers (h : Covers tree texts) (x : Setting) :
    ∃ entries, tree.get? x.heading = some (.table entries) ∧
      entries.lookup x.name = some (.scalar (texts x)) := by
  obtain ⟨inner, hinner, htext⟩ := h x
  cases inner with
  | table entries => exact ⟨entries, hinner, htext⟩
  | _ => cases htext

def ofTexts (texts : Setting → String) : Settings :=
  ⟨texts .level, texts .indent,
    ⟨texts .scriptsDir, texts .autoloadsDir, texts .manifest, texts .autoloadRegistry⟩⟩

theorem of_ofTexts (texts : Setting → String) (x : Setting) : x.of (ofTexts texts) = texts x := by
  cases x <;> rfl

theorem ofTree_of_covers (h : Covers tree texts) : ofTree tree = .ok (ofTexts texts) := by
  obtain ⟨logging, hlogging, hlevel⟩ := exists_entries_of_covers h .level
  obtain ⟨emit, hemit, hindent⟩ := exists_entries_of_covers h .indent
  obtain ⟨exports, hexports, hscripts⟩ := exists_entries_of_covers h .scriptsDir
  -- The settings of the last section are read from one table.
  have hlast (x : Setting) (hx : x.heading = Setting.scriptsDir.heading) :
      exports.lookup x.name = some (.scalar (texts x)) := by
    obtain ⟨entries, hentries, htext⟩ := exists_entries_of_covers h x
    rw [hx, hexports] at hentries
    cases hentries
    exact htext
  have hautoloads := hlast .autoloadsDir rfl
  have hmanifest := hlast .manifest rfl
  have hregistry := hlast .autoloadRegistry rfl
  clear hlast
  simp only [Setting.heading, Setting.name] at *
  simp [ofTree, sections, sectionTexts, *]
  rfl

theorem covers_override {o : Override} {y : Setting} (hkey : foldKey o.key = y.key)
    (hcovers : Covers tree texts) :
    ∃ path, SettingKey.ofText? o.key = some path ∧
      ∃ t, setAt tree path (.scalar o.value) = .ok t ∧
        Covers t fun x => (x.textOf? o).toList.getLastD (texts x) := by
  obtain ⟨outer, inner, hpath, houter, hinner⟩ :=
    SettingKey.ofText?_of_names y.isName_heading y.isName_name hkey
  have htexts (x : Setting) :
      x.textsAt (.scalar o.value) [.key outer, .key inner] = (x.textOf? o).toList := by
    simp only [Setting.textsAt, Setting.textOf?, houter, hinner, hkey, y.key_eq_iff]
    split <;> rfl
  have hreach : SettingTree.Reaches [.key outer, .key inner] tree := trivial
  have horderly : (SettingTree.scalar o.value).Orderly [.key outer, .key inner] := by
    simp [SettingTree.Orderly, SettingTree.text?]
  simp only [← htexts]
  exact ⟨_, hpath, covers_setAt hreach horderly hcovers⟩

end Settings

end Blueprint
