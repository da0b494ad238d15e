import Blueprint.Proofs.Description.Parts
import Mathlib.Data.List.Chain

/-!
# Columns between pairs of quotes

A text without two quotes side by side can be a column. Columns that are joined by pairs of quotes
come apart again unless a quote that belongs to a column stands beside such a pair, because pairs
are found from left to right. A quote at the end of a column is then taken for the first of the
pair, and what it leaves behind joins the next column.
-/

namespace Blueprint

namespace Text

/-- No two quotes stand side by side in the text. -/
def Unpaired (s : List Char) : Prop :=
  s.IsChain fun l r => ¬(l = '\'' ∧ r = '\'')

theorem unpaired_nil : Unpaired [] :=
  .nil

theorem Unpaired.stretch {s part : List Char} (h : Unpaired s) (hp : part <:+: s) : Unpaired part :=
  List.IsChain.infix h hp

theorem unpaired_of_not_mem {s : List Char} (h : '\'' ∉ s) : Unpaired s := by
  induction s with
  | nil => exact .nil
  | cons c rest ih =>
    obtain ⟨hc, hrest⟩ : '\'' ≠ c ∧ '\'' ∉ rest := by simpa using h
    exact List.IsChain.cons (ih hrest) fun d _ hcd => hc hcd.1.symm

theorem Unpaired.join {l r : List Char} {c : Char} (hl : Unpaired l) (hc : c ≠ '\'')
    (hr : Unpaired r) : Unpaired (l ++ c :: r) := by
  have htail : Unpaired (c :: r) := List.IsChain.cons hr fun d _ hcd => hc hcd.1
  apply List.IsChain.append hl htail
  intro d _ e he hde
  obtain rfl : c = e := by simpa using he
  exact hc hde.2

theorem unpaired_cons_quote {s : List Char} (h : Unpaired s) (hhead : s.head? ≠ some '\'') :
    Unpaired ('\'' :: s) := by
  refine List.IsChain.cons h fun d hd hq => hhead ?_
  rw [Option.mem_def.mp hd, hq.2]

theorem columns_eq_singleton {s : List Char} (h : Unpaired s) : columns s = [s] := by
  induction s with
  | nil => rfl
  | cons c rest ih =>
    obtain ⟨hhead, hrest⟩ := List.isChain_cons.mp h
    rw [columns_cons fun hc hq => hhead '\'' (by simp [hq]) ⟨hc, rfl⟩, ih hrest]
    rfl

/-- The first pair of quotes ends the first column, if no quote stands before it. -/
theorem columns_append_pair {u : List Char} (h : Unpaired u) (hlast : u.getLast? ≠ some '\'')
    (r : List Char) : columns (u ++ '\'' :: '\'' :: r) = u :: columns r := by
  induction u with
  | nil => rfl
  | cons c u ih =>
    obtain ⟨hhead, hu⟩ := List.isChain_cons.mp h
    have hnext : c = '\'' → (u ++ '\'' :: '\'' :: r).head? ≠ some '\'' := by
      intro hc hq
      cases u with
      | nil => exact hlast (by simp [hc])
      | cons d u => exact hhead d rfl ⟨hc, by simpa using hq⟩
    have hlast' : u.getLast? ≠ some '\'' := by
      cases u with
      | nil => simp
      | cons d u => simpa [List.getLast?_cons_cons] using hlast
    rw [List.cons_append, columns_cons hnext, ih hu hlast']
    rfl

theorem intercalate_pair (c d : List Char) (cols : List (List Char)) :
    ['\'', '\''].intercalate (c :: d :: cols) =
      c ++ '\'' :: '\'' :: ['\'', '\''].intercalate (d :: cols) := by
  rw [List.intercalate_cons_cons, List.append_assoc]
  rfl

theorem columns_intercalate {cols : List (List Char)} (hne : cols ≠ [])
    (hun : ∀ c ∈ cols, Unpaired c) (hlast : ∀ c ∈ cols.dropLast, c.getLast? ≠ some '\'') :
    columns (['\'', '\''].intercalate cols) = cols := by
  induction cols with
  | nil => exact absurd rfl hne
  | cons c cols ih =>
    cases cols with
    | nil => simpa using columns_eq_singleton (hun c (by simp))
    | cons d cols =>
      have hrest := ih (by simp) (fun e he => hun e (List.mem_cons_of_mem c he))
        (fun e he => hlast e (by simpa using Or.inr he))
      rw [intercalate_pair, columns_append_pair (hun c (by simp)) (hlast c (by simp)), hrest]

/-- The first column is where the text starts, the others are stretches of it, and none of them
holds a pair of quotes. -/
theorem columns_stretches {s first : List Char} {others : List (List Char)}
    (h : columns s = first :: others) :
    first <+: s ∧ Unpaired first ∧ ∀ c ∈ others, c <:+: s ∧ Unpaired c := by
  fun_induction columns s generalizing first others with
  | case1 =>
    obtain ⟨rfl, rfl⟩ : [] = first ∧ [] = others := by simpa using h
    simp [unpaired_nil]
  | case2 rest ih =>
    obtain ⟨rfl, rfl⟩ : [] = first ∧ columns rest = others := by simpa using h
    refine ⟨List.nil_prefix, unpaired_nil, fun c hc => ?_⟩
    cases hr : columns rest with
    | nil => exact absurd hr (columns_ne_nil rest)
    | cons next later =>
      obtain ⟨hnext, hun, hlater⟩ := ih hr
      rw [hr] at hc
      have hskip : ∀ part, part <:+: rest → part <:+: '\'' :: '\'' :: rest :=
        fun part hp => List.infix_cons (List.infix_cons hp)
      rcases List.mem_cons.mp hc with rfl | hc
      · exact ⟨hskip _ hnext.isInfix, hun⟩
      · exact ⟨hskip c (hlater c hc).1, (hlater c hc).2⟩
  | case3 c rest hpair ih =>
    cases hr : columns rest with
    | nil => exact absurd hr (columns_ne_nil rest)
    | cons next later =>
      obtain ⟨hnext, hun, hlater⟩ := ih hr
      obtain ⟨rfl, rfl⟩ : c :: next = first ∧ later = others := by simpa [hr] using h
      refine ⟨(List.prefix_cons_inj c).mpr hnext, List.IsChain.cons hun fun d hd hq => ?_,
        fun e he => ⟨List.infix_cons (hlater e he).1, (hlater e he).2⟩⟩
      obtain ⟨tail, rfl⟩ := hnext
      cases next with
      | nil => simp at hd
      | cons e next =>
        obtain rfl : e = d := by simpa using hd
        exact hpair _ hq.1 (by rw [hq.2]; rfl)

theorem stretch_of_mem_columns {s c : List Char} (h : c ∈ columns s) : c <:+: s ∧ Unpaired c := by
  cases hs : columns s with
  | nil => exact absurd hs (columns_ne_nil s)
  | cons first others =>
    obtain ⟨hfirst, hun, hothers⟩ := columns_stretches hs
    rw [hs] at h
    rcases List.mem_cons.mp h with rfl | h
    · exact ⟨hfirst.isInfix, hun⟩
    · exact hothers c h

end Text

namespace Section

open Text (Unpaired)

/-- Columns that come apart again behind a tag and its quote: the first does not start with a quote,
and none that has another behind it ends with one. -/
structure Separable (cols : List (List Char)) : Prop where
  head : ∀ c ∈ cols.head?, c.head? ≠ some '\''
  last : ∀ c ∈ cols.dropLast, c.getLast? ≠ some '\''

/-- A first column that starts with a quote is lost: the quote makes a pair with that of the tag. -/
theorem columnsAfterTag_quote (r : List Char) :
    columnsAfterTag ('\'' :: r) = [] :: Text.columns r := rfl

theorem columnsAfterTag_append_pair {u : List Char} (h : Unpaired u) (hne : u ≠ [])
    (hhead : u.head? ≠ some '\'') (hlast : u.getLast? ≠ some '\'') (r : List Char) :
    columnsAfterTag (u ++ '\'' :: '\'' :: r) = u :: Text.columns r := by
  have hlast' : ('\'' :: u).getLast? ≠ some '\'' := by
    cases u with
    | nil => exact absurd rfl hne
    | cons c u => simpa [List.getLast?_cons_cons] using hlast
  rw [columnsAfterTag, ← List.cons_append,
    Text.columns_append_pair (Text.unpaired_cons_quote h hhead) hlast']
  rfl

theorem columnsAfterTag_intercalate {first : List Char} {others : List (List Char)}
    (hne : first ≠ []) (hun : ∀ c ∈ first :: others, Unpaired c) (h : Separable (first :: others)) :
    columnsAfterTag (['\'', '\''].intercalate (first :: others)) = first :: others := by
  have hhead : first.head? ≠ some '\'' := h.head first rfl
  cases others with
  | nil =>
    have hfirst : Unpaired first := hun first List.mem_cons_self
    have hcolumns := Text.columns_eq_singleton (Text.unpaired_cons_quote hfirst hhead)
    simp [columnsAfterTag, hcolumns]
  | cons second others =>
    have hrest : Text.columns (['\'', '\''].intercalate (second :: others)) = second :: others :=
      Text.columns_intercalate (by simp) (fun c hc => hun c (List.mem_cons_of_mem first hc))
        fun c hc => h.last c (by simpa using Or.inr hc)
    rw [Text.intercalate_pair, columnsAfterTag_append_pair (hun first (by simp)) hne hhead
      (h.last first (by simp)), hrest]

theorem stretch_of_mem_columnsAfterTag {r c : List Char} (h : c ∈ columnsAfterTag r) :
    c <:+: '\'' :: r ∧ Unpaired c := by
  cases hcols : Text.columns ('\'' :: r) with
  | nil => exact absurd hcols (Text.columns_ne_nil _)
  | cons first others =>
    rw [columnsAfterTag, hcols, List.modifyHead_cons] at h
    have hmem : ∀ d ∈ first :: others, d <:+: '\'' :: r ∧ Unpaired d := fun d hd =>
      Text.stretch_of_mem_columns (by rw [hcols]; exact hd)
    rcases List.mem_cons.mp h with rfl | h
    · have hfirst := hmem first List.mem_cons_self
      have htail : first.tail <:+: first := (List.tail_suffix first).isInfix
      exact ⟨htail.trans hfirst.1, hfirst.2.stretch htail⟩
    · exact hmem c (List.mem_cons_of_mem first h)

end Section

end Blueprint
