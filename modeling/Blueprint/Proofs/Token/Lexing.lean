import Blueprint.Proofs.Text.Cutting
import Blueprint.Token
import Mathlib.Data.List.Chain

/-!
# The token lists of texts

A token list is the reading of some text exactly if every gap and word in it is made of characters
of its own sort and no two neighbours run into each other. The text of such a list, read again,
gives the list back. Both properties hold of every stretch of a reading, so cutting tokens at a mark
and cutting characters at it are the same.
-/

namespace Blueprint.Token

def isLetter (c : Char) : Bool :=
  !isMark c && !Text.isBlank c

/-- Gaps and words hold at least one character, and only those of their sort. -/
def Valid : Token → Prop
  | gap blanks => blanks ≠ [] ∧ ∀ c ∈ blanks, Text.isBlank c = true
  | word letters => letters ≠ [] ∧ ∀ c ∈ letters, isLetter c = true
  | _ => True

theorem text_ne_nil {t : Token} (h : t.Valid) : t.text ≠ [] := by
  cases t with
  | gap | word => exact h.1
  | _ => exact List.cons_ne_nil _ _

/-- Two tokens that stay two when their texts stand side by side. -/
def Apart : Token → Token → Prop
  | gap _, gap _ => False
  | word _, word _ => False
  | fieldMark, fieldMark => False
  | fieldMark, columnMark => False
  | _, _ => True

/-- The token lists that texts are read as. -/
structure Lexed (ts : List Token) : Prop where
  valid : ∀ t ∈ ts, t.Valid
  apart : ts.IsChain Apart

theorem Lexed.of_infix {part ts : List Token} (h : Lexed ts) (hp : part <:+: ts) : Lexed part where
  valid t ht := h.valid t (hp.subset ht)
  apart := h.apart.infix hp

theorem Lexed.nil : Lexed [] := ⟨by simp, .nil⟩

theorem Lexed.cons {t : Token} {ts : List Token} (ht : t.Valid) (h : Lexed ts)
    (hapart : ∀ u ∈ ts.head?, Apart t u) : Lexed (t :: ts) where
  valid u hu := by
    rcases List.mem_cons.mp hu with rfl | hu
    · exact ht
    · exact h.valid u hu
  apart := h.apart.cons hapart

theorem Lexed.tail {t : Token} {ts : List Token} (h : Lexed (t :: ts)) : Lexed ts :=
  h.of_infix (List.suffix_cons t ts).isInfix

theorem Lexed.append {l r : List Token} (hl : Lexed l) (hr : Lexed r)
    (hapart : ∀ t ∈ l.getLast?, ∀ u ∈ r.head?, Apart t u) : Lexed (l ++ r) where
  valid t ht := by
    rcases List.mem_append.mp ht with ht | ht
    · exact hl.valid t ht
    · exact hr.valid t ht
  apart := hl.apart.append hr.apart hapart

section Characters

variable {c : Char}

theorem isBlank_of_isMark (h : isMark c = true) : Text.isBlank c = false := by
  simp only [isMark, Bool.or_eq_true, beq_iff_eq] at h
  rcases h with ((rfl | rfl) | rfl) | rfl <;> decide

theorem isMark_of_isBlank (h : Text.isBlank c = true) : isMark c = false := by
  by_contra hm
  simp [isBlank_of_isMark (Bool.not_eq_false _ ▸ hm)] at h

theorem isMark_of_isLetter (h : isLetter c = true) : isMark c = false := by
  simp_all [isLetter]

theorem isBlank_of_isLetter (h : isLetter c = true) : Text.isBlank c = false := by
  simp_all [isLetter]

theorem ne_of_isMark_eq_false (h : isMark c = false) :
    c ≠ ';' ∧ c ≠ '\'' ∧ c ≠ '|' ∧ c ≠ ',' := by
  simpa [isMark, and_assoc] using h

theorem consChar_of_isBlank (h : Text.isBlank c = true) (ts : List Token) :
    consChar c ts = consGap c ts := by
  obtain ⟨h₁, h₂, h₃, h₄⟩ := ne_of_isMark_eq_false (isMark_of_isBlank h)
  simp [consChar, h, h₁, h₂, h₃, h₄]

theorem consChar_of_isLetter (h : isLetter c = true) (ts : List Token) :
    consChar c ts = consWord c ts := by
  obtain ⟨h₁, h₂, h₃, h₄⟩ := ne_of_isMark_eq_false (isMark_of_isLetter h)
  simp [consChar, isBlank_of_isLetter h, h₁, h₂, h₃, h₄]

theorem lex_cons {rest : List Char} (h : c = '\'' → rest.head? ≠ some '\'') :
    lex (c :: rest) = consChar c (lex rest) := by
  cases rest with
  | nil => exact lex.eq_3 c [] (by simp)
  | cons d rest =>
    refine lex.eq_3 c (d :: rest) ?_
    rintro r rfl hr
    simp_all

theorem lex_cons_of_isBlank (h : Text.isBlank c = true) (rest : List Char) :
    lex (c :: rest) = consGap c (lex rest) := by
  have hquote : c ≠ '\'' := (ne_of_isMark_eq_false (isMark_of_isBlank h)).2.1
  rw [lex_cons fun hc => absurd hc hquote, consChar_of_isBlank h]

theorem lex_cons_of_isLetter (h : isLetter c = true) (rest : List Char) :
    lex (c :: rest) = consWord c (lex rest) := by
  have hquote : c ≠ '\'' := (ne_of_isMark_eq_false (isMark_of_isLetter h)).2.1
  rw [lex_cons fun hc => absurd hc hquote, consChar_of_isLetter h]

theorem lex_quote (rest : List Char) :
    ∃ mark later, lex ('\'' :: rest) = mark :: later ∧ mark.isQuote = true := by
  cases rest with
  | nil => exact ⟨.fieldMark, [], rfl, rfl⟩
  | cons c rest =>
    by_cases hc : c = '\''
    · subst hc
      exact ⟨.columnMark, lex rest, rfl, rfl⟩
    · rw [lex_cons fun _ => by simpa using hc]
      exact ⟨.fieldMark, lex (c :: rest), rfl, rfl⟩

end Characters

section Readings

variable {c : Char} {ts : List Token}

theorem Lexed.consGap (hc : Text.isBlank c = true) (h : Lexed ts) : Lexed (consGap c ts) := by
  unfold Token.consGap
  split
  next blanks rest =>
    have hblanks : (gap blanks).Valid := h.valid _ (by simp)
    refine Lexed.cons ⟨by simp, by simpa [hc] using hblanks.2⟩ h.tail fun u hu => ?_
    have := h.apart.rel_head? hu
    cases u <;> simp_all [Apart]
  next hgap =>
    refine Lexed.cons ⟨by simp, by simpa using hc⟩ h fun u hu => ?_
    cases ts <;> cases u <;> simp_all [Apart]

theorem Lexed.consWord (hc : isLetter c = true) (h : Lexed ts) : Lexed (consWord c ts) := by
  unfold Token.consWord
  split
  next letters rest =>
    have hletters : (word letters).Valid := h.valid _ (by simp)
    refine Lexed.cons ⟨by simp, by simpa [hc] using hletters.2⟩ h.tail fun u hu => ?_
    have := h.apart.rel_head? hu
    cases u <;> simp_all [Apart]
  next hword =>
    refine Lexed.cons ⟨by simp, by simpa using hc⟩ h fun u hu => ?_
    cases ts <;> cases u <;> simp_all [Apart]

theorem Lexed.consChar (h : Lexed ts) (hquote : c = '\'' → ∀ u ∈ ts.head?, u.isQuote = false) :
    Lexed (consChar c ts) := by
  by_cases hmark : isMark c = true
  · simp only [isMark, Bool.or_eq_true, beq_iff_eq] at hmark
    rcases hmark with ((rfl | rfl) | rfl) | rfl
    · exact h.cons trivial fun u _ => by cases u <;> trivial
    · refine h.cons trivial fun u hu => ?_
      have := hquote rfl u hu
      cases u <;> simp_all [Apart, isQuote]
    · exact h.cons trivial fun u _ => by cases u <;> trivial
    · exact h.cons trivial fun u _ => by cases u <;> trivial
  · by_cases hblank : Text.isBlank c = true
    · exact consChar_of_isBlank hblank ts ▸ h.consGap hblank
    · have hletter : isLetter c = true := by simp_all [isLetter]
      exact consChar_of_isLetter hletter ts ▸ h.consWord hletter

theorem head?_eq_quote_of_isQuote {u : Token} {s : List Char} (hu : u ∈ (lex s).head?)
    (hq : u.isQuote = true) : s.head? = some '\'' := by
  rw [← textOf_lex s]
  cases hl : lex s with
  | nil => simp [hl] at hu
  | cons v rest =>
    obtain rfl : v = u := by simpa [hl] using hu
    cases v <;> simp_all [isQuote, text]

theorem lexed_lex (s : List Char) : Lexed (lex s) := by
  fun_induction lex s with
  | case1 => exact .nil
  | case2 rest ih => exact ih.cons trivial fun u _ => by cases u <;> trivial
  | case3 c rest hpair ih =>
    refine ih.consChar fun hc u hu => ?_
    by_contra hq
    have hhead := head?_eq_quote_of_isQuote hu (by simpa using hq)
    cases rest with
    | nil => simp at hhead
    | cons d rest => exact hpair rest hc (by simp_all)

theorem lex_blanks {blanks rest : List Char} (hne : blanks ≠ [])
    (hblank : ∀ c ∈ blanks, Text.isBlank c = true)
    (hrest : ∀ u ∈ (lex rest).head?, u.isGap = false) :
    lex (blanks ++ rest) = gap blanks :: lex rest := by
  induction blanks with
  | nil => exact absurd rfl hne
  | cons c blanks ih =>
    have hc : Text.isBlank c = true := hblank c (by simp)
    rw [List.cons_append, lex_cons_of_isBlank hc]
    by_cases hnil : blanks = []
    · subst hnil
      cases hl : lex rest with
      | nil => simp [consGap, hl]
      | cons u us =>
        have := hrest u (by simp [hl])
        cases u <;> simp_all [consGap, isGap]
    · rw [ih hnil fun d hd => hblank d (by simp [hd])]
      rfl

theorem lex_letters {letters rest : List Char} (hne : letters ≠ [])
    (hletter : ∀ c ∈ letters, isLetter c = true)
    (hrest : ∀ u ∈ (lex rest).head?, u.kind ≠ .word) :
    lex (letters ++ rest) = word letters :: lex rest := by
  induction letters with
  | nil => exact absurd rfl hne
  | cons c letters ih =>
    have hc : isLetter c = true := hletter c (by simp)
    rw [List.cons_append, lex_cons_of_isLetter hc]
    by_cases hnil : letters = []
    · subst hnil
      cases hl : lex rest with
      | nil => simp [consWord, hl]
      | cons u us =>
        have := hrest u (by simp [hl])
        cases u <;> simp_all [consWord, kind]
    · rw [ih hnil fun d hd => hletter d (by simp [hd])]
      rfl

/-- The text of a token list starts with a quote only if a quote mark is its first token. -/
theorem head?_textOf_ne_quote (h : Lexed ts) (hq : ∀ u ∈ ts.head?, u.isQuote = false) :
    (textOf ts).head? ≠ some '\'' := by
  cases ts with
  | nil => simp
  | cons t rest =>
    have hvalid := h.valid t (by simp)
    have ht := hq t (by simp)
    cases t with
    | sectionMark | bar | comma => simp [text]
    | columnMark | fieldMark => simp [isQuote] at ht
    | gap blanks =>
      obtain ⟨hne, hblank⟩ := hvalid
      obtain ⟨c, cs, rfl⟩ := List.exists_cons_of_ne_nil hne
      have := (ne_of_isMark_eq_false (isMark_of_isBlank (hblank c (by simp)))).2.1
      simpa [text] using this
    | word letters =>
      obtain ⟨hne, hletter⟩ := hvalid
      obtain ⟨c, cs, rfl⟩ := List.exists_cons_of_ne_nil hne
      have := (ne_of_isMark_eq_false (isMark_of_isLetter (hletter c (by simp)))).2.1
      simpa [text] using this

theorem lex_textOf (h : Lexed ts) : lex (textOf ts) = ts := by
  induction ts with
  | nil => rfl
  | cons t rest ih =>
    have hrest := ih h.tail
    have happ : ∀ u ∈ rest.head?, Apart t u := h.apart.rel_head?
    have hvalid := h.valid t (by simp)
    cases t with
    | sectionMark | bar | comma =>
      rw [textOf_cons, text, List.singleton_append, lex_cons (by simp), hrest]
      rfl
    | columnMark => simp [text, lex, hrest]
    | fieldMark =>
      have hq : ∀ u ∈ rest.head?, u.isQuote = false := fun u hu => by
        have := happ u hu
        cases u <;> simp_all [Apart, isQuote]
      rw [textOf_cons, text, List.singleton_append,
        lex_cons fun _ => head?_textOf_ne_quote h.tail hq, hrest]
      rfl
    | gap blanks =>
      rw [textOf_cons, text, lex_blanks hvalid.1 hvalid.2, hrest]
      rw [hrest]
      intro u hu
      have := happ u hu
      cases u <;> simp_all [Apart, isGap]
    | word letters =>
      rw [textOf_cons, text, lex_letters hvalid.1 hvalid.2, hrest]
      rw [hrest]
      intro u hu
      have := happ u hu
      cases u <;> simp_all [Apart, kind]

theorem lex_append_section (l r : List Char) :
    lex (l ++ ';' :: r) = lex l ++ sectionMark :: lex r := by
  have hlexed : Lexed (lex l ++ sectionMark :: lex r) := by
    have hright : Lexed (sectionMark :: lex r) :=
      (lexed_lex r).cons trivial fun u _ => by cases u <;> trivial
    refine (lexed_lex l).append hright fun t _ u hu => ?_
    obtain rfl : sectionMark = u := by simpa using hu
    cases t <;> trivial
  have htext : textOf (lex l ++ sectionMark :: lex r) = l ++ ';' :: r := by
    simp [textOf_lex, text]
  rw [← htext, lex_textOf hlexed]

end Readings

end Blueprint.Token
