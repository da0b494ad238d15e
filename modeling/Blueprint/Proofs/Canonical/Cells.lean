import Blueprint.Format.Canonical
import Blueprint.Proofs.Canonical.Columns

/-!
# Texts that canonical columns hold

What a compact description holds between its marks has no layout of its own: its blanks are single
spaces between characters that are not edges. Such texts, joined by commas and bars, make a column
that is as compact, and cutting the column at the same marks gives them back.
-/

namespace Blueprint.Canonical

open Layout (Tight)
open Text (Unpaired isBlank)

/-- The text can be a column of a compact section. -/
structure Column (s : String) : Prop where
  tight : Tight s.toList
  unpaired : Unpaired s.toList
  uncut : ';' ∉ s.toList

/-- The text can be the name of an enumeration. -/
structure Phrase (s : String) : Prop extends Column s where
  ne_empty : s ≠ ""

/-- The text can be an entry of a column. -/
structure Entry (s : String) : Prop extends Phrase s where
  comma : ',' ∉ s.toList

/-- The text can be an entry of a group. -/
structure Param (s : String) : Prop extends Entry s where
  bar : '|' ∉ s.toList

/-- The text can be a field of a header. -/
structure Title (s : String) : Prop extends Phrase s where
  quote : '\'' ∉ s.toList

/-- A text without a mark of sections, columns and fields whose blanks are single spaces inside
it. -/
structure Plain (s : String) : Prop where
  ne_empty : s ≠ ""
  uncut : ';' ∉ s.toList
  quote : '\'' ∉ s.toList
  head : ∀ c ∈ s.toList.head?, isBlank c = false
  last : ∀ c ∈ s.toList.getLast?, isBlank c = false
  space : ∀ c ∈ s.toList, isBlank c = true → c = ' '
  isolated : s.toList.IsChain fun l r => ¬(isBlank l = true ∧ isBlank r = true)

/-- A plain text without commas. -/
structure Cell (s : String) : Prop extends Plain s where
  comma : ',' ∉ s.toList

theorem plain_iff {s : String} :
    (s ≠ "" ∧ ';' ∉ s.toList ∧ '\'' ∉ s.toList ∧
      s.toList.head?.all (!isBlank ·) = true ∧ s.toList.getLast?.all (!isBlank ·) = true ∧
      s.toList.all (fun c => !isBlank c || c == ' ') = true ∧
      s.toList.IsChain fun l r => ¬(isBlank l = true ∧ isBlank r = true)) ↔ Plain s := by
  have hspace : s.toList.all (fun c => !isBlank c || c == ' ') = true ↔
      ∀ c ∈ s.toList, isBlank c = true → c = ' ' := by
    simp [imp_iff_not_or]
  simp only [hspace, Option.all_eq_true, Bool.not_eq_true']
  constructor
  · rintro ⟨hne, huncut, hquote, hhead, hlast, hspaces, hisolated⟩
    exact ⟨hne, huncut, hquote, hhead, hlast, hspaces, hisolated⟩
  · intro h
    exact ⟨h.ne_empty, h.uncut, h.quote, h.head, h.last, h.space, h.isolated⟩

instance (s : String) : Decidable (Plain s) :=
  decidable_of_iff _ plain_iff

instance (s : String) : Decidable (Cell s) :=
  decidable_of_iff (Plain s ∧ ',' ∉ s.toList)
    ⟨fun ⟨hplain, hcomma⟩ => ⟨hplain, hcomma⟩, fun ⟨hplain, hcomma⟩ => ⟨hplain, hcomma⟩⟩

theorem Plain.tight {s : String} (h : Plain s) : Tight s.toList := by
  have hedge : ∀ c ∈ s.toList, Layout.isEdge c = false := by
    intro c hc
    have huncut : c ≠ ';' := fun heq => h.uncut (heq ▸ hc)
    have hquote : c ≠ '\'' := fun heq => h.quote (heq ▸ hc)
    simp [Layout.isEdge, huncut, hquote]
  apply Layout.tight_of_chain _ h.head h.last
  apply h.isolated.imp_of_mem_imp
  intro l r hl hr hlr
  constructor
  · intro hblank
    exact ⟨h.space l hl hblank, by simpa [hblank] using hlr, hedge r hr⟩
  · intro hblank
    exact ⟨h.space r hr hblank, by simpa [hblank] using hlr, hedge l hl⟩

theorem Plain.title {s : String} (h : Plain s) : Title s :=
  ⟨⟨⟨h.tight, Text.unpaired_of_not_mem h.quote, h.uncut⟩, h.ne_empty⟩, h.quote⟩

theorem Cell.entry {s : String} (h : Cell s) : Entry s :=
  ⟨h.toPlain.title.toPhrase, h.comma⟩

theorem ne_empty_iff {s : String} : s ≠ "" ↔ s.toList ≠ [] :=
  not_congr String.toList_eq_nil_iff.symm

theorem column_empty : Column "" :=
  ⟨Layout.tight_nil, Text.unpaired_nil, by decide⟩

theorem Column.trim_toList {s : String} (h : Column s) : Text.trim s.toList = s.toList :=
  Text.trim_eq_self h.tight.head? h.tight.getLast?

theorem intercalate_induction {P : List Char → Prop} {separator : List Char} (hnil : P [])
    (hjoin : ∀ l r, P l → P r → P (l ++ (separator ++ r))) {parts : List (List Char)}
    (h : ∀ part ∈ parts, P part) : P (separator.intercalate parts) := by
  induction parts with
  | nil => exact hnil
  | cons part parts ih =>
    have hparts := ih fun p hp => h p (List.mem_cons_of_mem part hp)
    have hpart := h part List.mem_cons_self
    cases parts with
    | nil => simpa using hpart
    | cons next parts =>
      rw [List.intercalate_cons_cons, List.append_assoc]
      exact hjoin part _ hpart hparts

theorem not_mem_intercalate {c : Char} {separator : List Char} (hsep : c ∉ separator)
    {parts : List (List Char)} (h : ∀ part ∈ parts, c ∉ part) :
    c ∉ separator.intercalate parts := by
  apply intercalate_induction (P := fun s => c ∉ s) List.not_mem_nil
  · intro l r hl hr
    simp only [List.mem_append, not_or]
    exact ⟨hl, hsep, hr⟩
  · exact h

/-- Columns joined by a character that is neither blank nor a mark of columns and sections are one
column. -/
theorem Column.intercalate {c : Char} (hblank : isBlank c = false) (hquote : c ≠ '\'')
    (hsection : c ≠ ';') {parts : List String} (h : ∀ part ∈ parts, Column part) :
    Column ((String.singleton c).intercalate parts) := by
  have htext : ((String.singleton c).intercalate parts).toList =
      [c].intercalate (parts.map String.toList) := by
    rw [String.toList_intercalate, String.toList_singleton]
  constructor
  · rw [htext]
    apply intercalate_induction Layout.tight_nil
    · intro l r hl hr
      exact hl.join hblank hr
    · simpa using fun p hp => (h p hp).tight
  · rw [htext]
    apply intercalate_induction Text.unpaired_nil
    · intro l r hl hr
      exact hl.join hquote hr
    · simpa using fun p hp => (h p hp).unpaired
  · rw [htext]
    apply not_mem_intercalate
    · simpa using hsection.symm
    · simpa using fun p hp => (h p hp).uncut

theorem column_entries {l : List String} (h : ∀ s ∈ l, Column s) : Column (entries l) :=
  Column.intercalate (c := ',') (by decide) (by decide) (by decide) h

theorem column_groups {lists : List (List String)} (h : ∀ l ∈ lists, ∀ s ∈ l, Column s) :
    Column (groups lists) := by
  refine Column.intercalate (c := '|') (by decide) (by decide) (by decide) fun part hp => ?_
  obtain ⟨l, hl, rfl⟩ := List.mem_map.mp hp
  exact column_entries (h l hl)

section Reading

theorem toList_entries (l : List String) :
    (entries l).toList = [','].intercalate (l.map String.toList) :=
  String.toList_intercalate

theorem toList_groups (lists : List (List String)) :
    (groups lists).toList = ['|'].intercalate (lists.map fun l => (entries l).toList) := by
  rw [groups, String.toList_intercalate, List.map_map]
  rfl

theorem map_trim_toList {l : List String} (h : ∀ s ∈ l, Column s) :
    (l.map String.toList).map (fun part => String.ofList (Text.trim part)) = l := by
  rw [List.map_map]
  conv_rhs => rw [← List.map_id l]
  refine List.map_congr_left fun s hs => ?_
  simp [(h s hs).trim_toList]

theorem items_entries_of_column {l : List String} (hne : l ≠ [])
    (h : ∀ s ∈ l, Column s ∧ ',' ∉ s.toList) : Text.items (entries l).toList = l := by
  rw [Text.items, toList_entries, Text.pieces_intercalate (by simpa using hne),
    map_trim_toList fun s hs => (h s hs).1]
  intro part hp
  obtain ⟨s, hs, rfl⟩ := List.mem_map.mp hp
  exact (h s hs).2

theorem items_entries {l : List String} (hne : l ≠ []) (h : ∀ s ∈ l, Entry s) :
    Text.items (entries l).toList = l :=
  items_entries_of_column hne fun s hs => ⟨(h s hs).toColumn, (h s hs).comma⟩

theorem entries_ne_nil {l : List String} (hne : l ≠ []) (h : ∀ s ∈ l, Entry s) :
    (entries l).toList ≠ [] := by
  intro hnil
  have hitems := items_entries hne h
  rw [hnil] at hitems
  exact (h "" (by rw [← hitems]; decide)).ne_empty rfl

theorem filter_items_entries {l : List String} (h : ∀ s ∈ l, Entry s) :
    (Text.items (entries l).toList).filter (· ≠ "") = l := by
  by_cases hne : l = []
  · subst hne
    decide
  · rw [items_entries hne h, List.filter_eq_self]
    intro s hs
    simpa using (h s hs).ne_empty

theorem not_mem_entries {c : Char} (hcomma : c ≠ ',') {l : List String}
    (h : ∀ s ∈ l, c ∉ s.toList) : c ∉ (entries l).toList := by
  rw [toList_entries]
  exact not_mem_intercalate (by simpa using hcomma) (by simpa using h)

theorem not_mem_groups {c : Char} (hcomma : c ≠ ',') (hbar : c ≠ '|') {lists : List (List String)}
    (h : ∀ l ∈ lists, ∀ s ∈ l, c ∉ s.toList) : c ∉ (groups lists).toList := by
  rw [toList_groups]
  apply not_mem_intercalate (by simpa using hbar)
  intro part hp
  obtain ⟨l, hl, rfl⟩ := List.mem_map.mp hp
  exact not_mem_entries hcomma (h l hl)

theorem groups_groups {lists : List (List String)} (hne : lists ≠ [])
    (h : ∀ l ∈ lists, ∀ s ∈ l, Param s) : Text.groups (groups lists).toList = lists := by
  have hbar : ∀ part ∈ lists.map fun l => (entries l).toList, '|' ∉ part := by
    intro part hp
    obtain ⟨l, hl, rfl⟩ := List.mem_map.mp hp
    exact not_mem_entries (by decide) fun s hs => (h l hl s hs).bar
  rw [Text.groups, toList_groups, Text.pieces_intercalate (by simpa using hne) hbar, List.map_map]
  conv_rhs => rw [← List.map_id lists]
  exact List.map_congr_left fun l hl => filter_items_entries fun s hs => (h l hl s hs).toEntry

end Reading

section Read

variable {s : List Char} {part : List Char}

theorem column_trim (hs : Tight s) (hcut : ';' ∉ s) (hp : part <:+: s) (hun : Unpaired part) :
    Column (String.ofList (Text.trim part)) where
  tight := by simpa using hs.trim_of_infix hp
  unpaired := by simpa using hun.stretch (Text.trim_infix part)
  uncut := by
    have hmem := ((Text.trim_infix part).trans hp).subset
    simpa using fun hc => hcut (hmem hc)

theorem entry_of_mem_items (hs : Tight s) (hcut : ';' ∉ s) (hp : part <:+: s)
    (hun : Unpaired part) {e : String} (he : e ∈ Text.items part) (hne : e ≠ "") : Entry e := by
  obtain ⟨piece, hpiece, rfl⟩ := List.mem_map.mp he
  have hstretch := Text.infix_of_mem_pieces hpiece
  refine ⟨⟨column_trim hs hcut (hstretch.trans hp) (hun.stretch hstretch), hne⟩, fun hc => ?_⟩
  have hmem : ',' ∈ piece := (Text.trim_infix piece).subset (by simpa using hc)
  exact Text.not_mem_of_mem_pieces hpiece hmem

theorem param_of_mem_groups (hs : Tight s) (hcut : ';' ∉ s) (hp : part <:+: s)
    (hun : Unpaired part) {l : List String} (hl : l ∈ Text.groups part) {e : String}
    (he : e ∈ l) : Param e := by
  obtain ⟨piece, hpiece, rfl⟩ := List.mem_map.mp hl
  obtain ⟨hmem, hne⟩ : e ∈ Text.items piece ∧ e ≠ "" := by simpa using he
  have hstretch := Text.infix_of_mem_pieces hpiece
  have hentry : Entry e :=
    entry_of_mem_items hs hcut (hstretch.trans hp) (hun.stretch hstretch) hmem hne
  refine ⟨hentry, fun hc => ?_⟩
  obtain ⟨part, hpart, rfl⟩ := List.mem_map.mp hmem
  have hbar : '|' ∈ piece := (Text.infix_of_mem_pieces hpart).subset
    ((Text.trim_infix part).subset (by simpa using hc))
  exact Text.not_mem_of_mem_pieces hpiece hbar

theorem title_trim (hs : Tight s) (hcut : ';' ∉ s) (hp : part ∈ Text.pieces (· == '\'') s)
    (hne : String.ofList (Text.trim part) ≠ "") : Title (String.ofList (Text.trim part)) := by
  have hquote : '\'' ∉ part := Text.not_mem_of_mem_pieces hp
  have hun : Unpaired part := Text.unpaired_of_not_mem hquote
  have hcolumn := column_trim hs hcut (Text.infix_of_mem_pieces hp) hun
  refine ⟨⟨hcolumn, hne⟩, fun hc => hquote ?_⟩
  exact (Text.trim_infix part).subset (by simpa using hc)

end Read

end Blueprint.Canonical
