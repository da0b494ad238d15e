import Blueprint.Text.Blank
import Blueprint.Text.Pieces
import Mathlib.Data.List.DropRight
import Mathlib.Data.List.Infix

/-!
# Cutting and trimming

Cutting a list at its separators undoes joining parts that hold none of them, and each part is a
stretch of the list. Trimming removes nothing but blanks at the two ends, so a trimmed text is a
stretch of the text as well and starts and ends with a character that is not blank.
-/

namespace Blueprint.Text

section Pieces

variable {α : Type}

theorem pieces_eq_splitOnP (p : α → Bool) (l : List α) : pieces p l = l.splitOnP p := by
  induction l with
  | nil => simp [pieces]
  | cons a rest ih => simp [pieces, List.splitOnP_cons_eq_if_modifyHead, ih]

theorem pieces_cons_of_pos {p : α → Bool} {a : α} (h : p a = true) (l : List α) :
    pieces p (a :: l) = [] :: pieces p l := by
  simp [pieces, h]

theorem pieces_cons_of_neg {p : α → Bool} {a : α} (h : p a = false) (l : List α) :
    pieces p (a :: l) = (pieces p l).modifyHead (a :: ·) := by
  simp [pieces, h]

theorem pieces_eq_singleton {p : α → Bool} {l : List α} (h : ∀ a ∈ l, p a = false) :
    pieces p l = [l] := by
  rw [pieces_eq_splitOnP, List.splitOnP_eq_singleton h]

theorem pieces_append {p : α → Bool} {l : List α} (h : ∀ a ∈ l, p a = false) (r : List α) :
    pieces p (l ++ r) = (pieces p r).modifyHead (l ++ ·) := by
  induction l with
  | nil => cases hp : pieces p r <;> simp [hp]
  | cons a l ih =>
    have ha := h a (by simp)
    have hl := ih fun b hb => h b (by simp [hb])
    cases hp : pieces p r <;> simp_all [pieces]

theorem pieces_append_cons {p : α → Bool} {a : α} (h : p a = true) (l r : List α) :
    pieces p (l ++ a :: r) = pieces p l ++ pieces p r := by
  rw [pieces_eq_splitOnP, pieces_eq_splitOnP, pieces_eq_splitOnP, List.splitOnP_append_cons _ _ h]

theorem length_pieces (p : α → Bool) (l : List α) : (pieces p l).length = l.countP p + 1 := by
  induction l with
  | nil => rfl
  | cons a l ih => by_cases ha : p a = true <;> simp [pieces, ha, ih]

/-- What is made part by part: of joined parts it makes what it makes of each of them, joined. -/
theorem form_intercalate {form : List α → List α} {mark mark' : List α}
    (h : ∀ l r, form (l ++ mark ++ r) = form l ++ mark' ++ form r) {parts : List (List α)}
    (hne : parts ≠ []) : form (mark.intercalate parts) = mark'.intercalate (parts.map form) := by
  induction parts with
  | nil => exact absurd rfl hne
  | cons part parts ih =>
    cases parts with
    | nil => simp
    | cons next rest =>
      have hrest := ih (by simp)
      rw [List.intercalate_cons_cons, h, hrest]
      simp only [List.map_cons, List.intercalate_cons_cons]

theorem pieces_intercalate [BEq α] [LawfulBEq α] {a : α} {parts : List (List α)}
    (hne : parts ≠ []) (h : ∀ part ∈ parts, a ∉ part) :
    pieces (· == a) ([a].intercalate parts) = parts := by
  rw [pieces_eq_splitOnP]
  exact List.splitOn_intercalate a h hne

theorem pieces_stretches {p : α → Bool} {l first : List α} {others : List (List α)}
    (h : pieces p l = first :: others) : first <+: l ∧ ∀ part ∈ others, part <:+: l := by
  induction l generalizing first others with
  | nil =>
    obtain ⟨rfl, rfl⟩ : first = [] ∧ others = [] := by simpa [pieces, eq_comm] using h
    simp
  | cons a rest ih =>
    cases hp : pieces p rest with
    | nil => exact absurd hp (pieces_ne_nil p rest)
    | cons next later =>
      obtain ⟨hnext, hlater⟩ := ih hp
      by_cases ha : p a = true
      · obtain ⟨rfl, rfl⟩ : [] = first ∧ next :: later = others := by
          simpa [pieces, hp, ha] using h
        refine ⟨List.nil_prefix, fun part hpart => ?_⟩
        rcases List.mem_cons.mp hpart with rfl | hpart
        · exact List.infix_cons hnext.isInfix
        · exact List.infix_cons (hlater part hpart)
      · obtain ⟨rfl, rfl⟩ : a :: next = first ∧ later = others := by
          simpa [pieces, hp, ha] using h
        exact ⟨(List.prefix_cons_inj a).mpr hnext, fun part hpart =>
          List.infix_cons (hlater part hpart)⟩

theorem infix_of_mem_pieces {p : α → Bool} {l part : List α} (h : part ∈ pieces p l) :
    part <:+: l := by
  cases hp : pieces p l with
  | nil => exact absurd hp (pieces_ne_nil p l)
  | cons first others =>
    obtain ⟨hfirst, hothers⟩ := pieces_stretches hp
    rw [hp] at h
    rcases List.mem_cons.mp h with rfl | h
    · exact hfirst.isInfix
    · exact hothers part h

theorem eq_false_of_mem_pieces {p : α → Bool} {l part : List α} (h : part ∈ pieces p l) :
    ∀ a ∈ part, p a = false := by
  induction l generalizing part with
  | nil => simp_all [pieces]
  | cons b rest ih =>
    cases hp : pieces p rest with
    | nil => exact absurd hp (pieces_ne_nil p rest)
    | cons first others =>
      by_cases hb : p b = true
      · have hmem : part = [] ∨ part ∈ pieces p rest := by simpa [pieces, hb] using h
        rcases hmem with rfl | hmem
        · simp
        · exact ih hmem
      · have hfirst : ∀ a ∈ first, p a = false := ih (by simp [hp])
        have hmem : part = b :: first ∨ part ∈ others := by simpa [pieces, hb, hp] using h
        rcases hmem with rfl | hmem
        · simpa [hb] using hfirst
        · exact ih (by simp [hp, hmem])

theorem not_mem_of_mem_pieces [BEq α] [LawfulBEq α] {a : α} {l part : List α}
    (h : part ∈ pieces (· == a) l) : a ∉ part := by
  intro hmem
  have hfalse := eq_false_of_mem_pieces h a hmem
  simp at hfalse

end Pieces

section Trim

variable {s : List Char}

theorem trimEnd_eq_rdropWhile (s : List Char) : trimEnd s = s.rdropWhile isBlank := rfl

theorem trim_infix (s : List Char) : trim s <:+: s :=
  (List.rdropWhile_prefix isBlank _).isInfix.trans (List.dropWhile_suffix isBlank).isInfix

theorem head?_trim : ∀ c ∈ (trim s).head?, isBlank c = false := by
  intro c hc
  have hpre : trim s <+: s.dropWhile isBlank := List.rdropWhile_prefix isBlank _
  have hhead : (s.dropWhile isBlank).head? = some c := by
    obtain ⟨rest, hrest⟩ := hpre
    rw [← hrest]
    cases ht : trim s with
    | nil => simp [ht] at hc
    | cons d tail => simpa [ht] using hc
  have hnot := List.head?_dropWhile_not isBlank s
  simpa [hhead] using hnot

theorem getLast?_trim : ∀ c ∈ (trim s).getLast?, isBlank c = false := by
  intro c hc
  have hne : trim s ≠ [] := by
    intro hnil
    simp [hnil] at hc
  have hlast : ¬isBlank ((trim s).getLast hne) = true := List.rdropWhile_last_not isBlank _ hne
  rw [Option.mem_def, List.getLast?_eq_getLast_of_ne_nil hne] at hc
  simpa [Option.some.inj hc] using hlast

/-- Nothing is trimmed from a text that starts and ends with characters that are not blank. -/
theorem trim_eq_self (hhead : ∀ c ∈ s.head?, isBlank c = false)
    (hlast : ∀ c ∈ s.getLast?, isBlank c = false) : trim s = s := by
  have hstart : s.dropWhile isBlank = s := by
    cases s with
    | nil => rfl
    | cons c rest => simp [hhead c rfl]
  rw [trim, trimStart, hstart, trimEnd_eq_rdropWhile, List.rdropWhile_eq_self_iff]
  intro hne
  simp [hlast _ (List.getLast?_eq_getLast_of_ne_nil hne)]

@[simp] theorem trim_nil : trim [] = [] := rfl

theorem trim_eq_nil_iff : trim s = [] ↔ ∀ c ∈ s, isBlank c = true := by
  rw [trim, trimEnd_eq_rdropWhile, List.rdropWhile_eq_nil_iff]
  constructor
  · intro hall c hc
    rw [← List.takeWhile_append_dropWhile (p := isBlank) (l := s), List.mem_append] at hc
    rcases hc with hc | hc
    · exact List.mem_takeWhile_imp hc
    · exact hall c hc
  · intro hall c hc
    exact hall c ((List.dropWhile_suffix isBlank).subset hc)

end Trim

end Blueprint.Text
