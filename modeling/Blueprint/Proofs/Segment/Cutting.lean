import Blueprint.Proofs.Token.Lexing
import Blueprint.Segment

/-!
# Segments as texts

A segment is cut at tokens, but what it means can be told from its text alone: sections, list
entries and groups are the parts of the text between `;`, `,` and `|`, header fields those between
quotes, and columns those between pairs of quotes. Where a segment starts plays no part in it.
-/

namespace Blueprint

namespace Text

/-- The parts of a text between pairs of quotes, where pairs are found from left to right. -/
def columns : List Char → List (List Char)
  | [] => [[]]
  | '\'' :: '\'' :: rest => [] :: columns rest
  | c :: rest => (columns rest).modifyHead (c :: ·)

def items (text : List Char) : List String :=
  (pieces (· == ',') text).map fun part => String.ofList (trim part)

/-- The lists between bars, without empty entries. -/
def groups (text : List Char) : List (List String) :=
  (pieces (· == '|') text).map fun part => (items part).filter (· ≠ "")

theorem columns_cons {c : Char} {rest : List Char} (h : c = '\'' → rest.head? ≠ some '\'') :
    columns (c :: rest) = (columns rest).modifyHead (c :: ·) := by
  cases rest with
  | nil => exact columns.eq_3 c [] (by simp)
  | cons d rest =>
    refine columns.eq_3 c (d :: rest) ?_
    rintro r rfl hr
    simp_all

theorem columns_ne_nil (s : List Char) : columns s ≠ [] := by
  fun_induction columns s with
  | case1 => simp
  | case2 rest ih => simp
  | case3 c rest _ ih => cases h : columns rest <;> simp_all

theorem columns_append {l : List Char} (h : '\'' ∉ l) (r : List Char) :
    columns (l ++ r) = (columns r).modifyHead (l ++ ·) := by
  induction l with
  | nil => cases hr : columns r <;> simp [hr]
  | cons c l ih =>
    have hc : c ≠ '\'' := fun hc => h (by simp [hc])
    rw [List.cons_append, columns_cons fun hq => absurd hq hc, ih fun hl => h (by simp [hl])]
    cases hr : columns r <;> simp

end Text

namespace Token

/-- The character of a kind of token at which lists of characters can be cut just as well. -/
def Kind.mark? : Kind → Option Char
  | .sectionMark => some ';'
  | .bar => some '|'
  | .comma => some ','
  | _ => none

theorem text_eq_of_kind {kind : Kind} {m : Char} (hm : kind.mark? = some m) {t : Token}
    (ht : t.kind = kind) : t.text = [m] := by
  subst ht
  cases t <;> simp only [Token.kind, Kind.mark?, Option.some.injEq, reduceCtorEq] at hm <;>
    subst hm <;> rfl

theorem mark_not_mem_text {kind : Kind} {m : Char} (hm : kind.mark? = some m) {t : Token}
    (hvalid : t.Valid) (ht : t.kind ≠ kind) : ∀ c ∈ t.text, (c == m) = false := by
  have hmark : isMark m = true := by
    cases kind <;> simp only [Kind.mark?, Option.some.injEq, reduceCtorEq] at hm <;> subst hm <;>
      decide
  intro c hc
  rw [beq_eq_false_iff_ne]
  rintro rfl
  cases t with
  | sectionMark | columnMark | fieldMark | bar | comma =>
    cases kind <;> simp_all [Kind.mark?, Token.kind, text]
  | gap blanks => simp [isMark_of_isBlank (hvalid.2 c hc)] at hmark
  | word letters => simp [isMark_of_isLetter (hvalid.2 c hc)] at hmark

/-- Cutting tokens at a mark of one character cuts their text at it. -/
theorem map_textOf_pieces {kind : Kind} {m : Char} (hm : kind.mark? = some m) {ts : List Token}
    (h : ∀ t ∈ ts, t.Valid) :
    (Text.pieces (·.kind == kind) ts).map textOf = Text.pieces (· == m) (textOf ts) := by
  induction ts with
  | nil => rfl
  | cons t rest ih =>
    have hrest := ih fun u hu => h u (by simp [hu])
    by_cases ht : t.kind = kind
    · simp [Text.pieces, ht, text_eq_of_kind hm ht, ← hrest]
    · rw [textOf_cons, Text.pieces_append (mark_not_mem_text hm (h t (by simp)) ht), ← hrest]
      cases hp : Text.pieces (·.kind == kind) rest <;> simp [Text.pieces, ht, hp]

theorem quote_not_mem_text {t : Token} (hvalid : t.Valid) (ht : t.isQuote = false) :
    '\'' ∉ t.text := by
  intro hc
  cases t with
  | sectionMark | columnMark | fieldMark | bar | comma => simp_all [text, isQuote]
  | gap blanks => exact absurd (isMark_of_isBlank (hvalid.2 _ hc)) (by decide)
  | word letters => exact absurd (isMark_of_isLetter (hvalid.2 _ hc)) (by decide)

theorem map_textOf_columns {ts : List Token} (h : Lexed ts) :
    (Text.pieces (·.kind == .columnMark) ts).map textOf = Text.columns (textOf ts) := by
  induction ts with
  | nil => rfl
  | cons t rest ih =>
    have hrest := ih h.tail
    by_cases hq : t.isQuote = true
    · cases t with
      | columnMark => simp [Text.pieces, Text.columns, kind, text, ← hrest]
      | fieldMark =>
        have hhead : (textOf rest).head? ≠ some '\'' := by
          refine head?_textOf_ne_quote h.tail fun u hu => ?_
          have := h.apart.rel_head? hu
          cases u <;> simp_all [Apart, isQuote]
        have hne : fieldMark.kind ≠ .columnMark := by decide
        rw [textOf_cons, text, List.singleton_append, Text.columns_cons fun _ => hhead, ← hrest]
        cases hp : Text.pieces (·.kind == .columnMark) rest <;>
          simp [Text.pieces, hne, hp, text]
      | _ => simp [isQuote] at hq
    · have hne : t.kind ≠ .columnMark := by cases t <;> simp_all [kind, isQuote]
      have hnot := quote_not_mem_text (h.valid t (by simp)) (by simpa using hq)
      rw [textOf_cons, Text.columns_append hnot, ← hrest]
      cases hp : Text.pieces (·.kind == .columnMark) rest <;> simp [Text.pieces, hne, hp]

theorem fieldsOf_eq_pieces {ts : List Token} (h : ∀ t ∈ ts, t.Valid) :
    Segment.fieldsOf ts = Text.pieces (· == '\'') (textOf ts) := by
  induction ts with
  | nil => rfl
  | cons t rest ih =>
    have hrest := ih fun u hu => h u (by simp [hu])
    by_cases hq : t.isQuote = true
    · cases t <;> simp_all [Segment.fieldsOf, isQuote, text, Text.pieces]
    · have hnot : ∀ c ∈ t.text, (c == '\'') = false := by
        intro c hc
        rw [beq_eq_false_iff_ne]
        rintro rfl
        exact quote_not_mem_text (h t (by simp)) (by simpa using hq) hc
      rw [textOf_cons, Text.pieces_append hnot, ← hrest]
      cases t <;> simp_all [Segment.fieldsOf, isQuote]

end Token

namespace Segment

def Lexed (s : Segment) : Prop :=
  Token.Lexed s.tokens

theorem lexed_ofText (source : List Char) : (ofText source).Lexed :=
  Token.lexed_lex source

@[simp] theorem text_ofText (source : List Char) : (ofText source).text = source :=
  Token.textOf_lex source

@[simp] theorem tokens_ofText (source : List Char) : (ofText source).tokens = Token.lex source :=
  rfl

theorem Lexed.lex_text {s : Segment} (h : s.Lexed) : Token.lex s.text = s.tokens :=
  Token.lex_textOf h

theorem map_tokens_cut (kind : Token.Kind) (s : Segment) :
    (s.cut kind).map tokens = Text.pieces (·.kind == kind) s.tokens := by
  have main : ∀ (ts : List Token) (start : Nat),
      (cutTokens kind start ts).1.tokens :: (cutTokens kind start ts).2.map tokens =
        Text.pieces (·.kind == kind) ts := by
    intro ts
    induction ts with
    | nil => intro start; rfl
    | cons t rest ih =>
      intro start
      have hrest := ih (start + t.byteSize)
      by_cases ht : t.kind = kind
      · simp [cutTokens, Text.pieces, ht, ← hrest]
      · simp [cutTokens, Text.pieces, ht, ← hrest]
  simpa [cut] using main s.tokens s.start

theorem Lexed.of_mem_cut {s part : Segment} {kind : Token.Kind} (h : s.Lexed)
    (hp : part ∈ s.cut kind) : part.Lexed := by
  have hmem : part.tokens ∈ (s.cut kind).map tokens := List.mem_map_of_mem hp
  rw [map_tokens_cut] at hmem
  exact Token.Lexed.of_infix h (Text.infix_of_mem_pieces hmem)

theorem map_text_cut (kind : Token.Kind) (s : Segment) :
    (s.cut kind).map text = (Text.pieces (·.kind == kind) s.tokens).map Token.textOf := by
  rw [← map_tokens_cut, List.map_map]
  rfl

theorem Lexed.map_text_cut {s : Segment} (h : s.Lexed) {kind : Token.Kind} {m : Char}
    (hm : kind.mark? = some m) : (s.cut kind).map text = Text.pieces (· == m) s.text := by
  rw [Segment.map_text_cut, Token.map_textOf_pieces hm h.valid]
  rfl

/-- The sections of a text are its parts between section marks. -/
theorem map_text_sections (source : List Char) :
    (sections source).map text = Text.pieces (· == ';') source := by
  have hmark : Token.Kind.sectionMark.mark? = some ';' := rfl
  rw [sections, (lexed_ofText source).map_text_cut hmark, text_ofText]

theorem Lexed.items_eq {s : Segment} (h : s.Lexed) : s.items = Text.items s.text := by
  rw [Text.items, ← h.map_text_cut (show Token.Kind.comma.mark? = some ',' from rfl), List.map_map]
  rfl

theorem Lexed.groups_eq {s : Segment} (h : s.Lexed) : s.groups = Text.groups s.text := by
  rw [Text.groups, ← h.map_text_cut (show Token.Kind.bar.mark? = some '|' from rfl), List.map_map,
    groups]
  refine List.map_congr_left fun part hpart => ?_
  rw [(h.of_mem_cut hpart).items_eq]
  rfl

theorem items_congr {s s' : Segment} (h : s.tokens = s'.tokens) : s.items = s'.items := by
  have main : ∀ s : Segment, s.items =
      (Text.pieces (·.kind == .comma) s.tokens).map fun ts =>
        String.ofList (Text.trim (Token.textOf ts)) := by
    intro s
    rw [← map_tokens_cut, List.map_map]
    rfl
  rw [main, main, h]

theorem groups_congr {s s' : Segment} (h : s.tokens = s'.tokens) : s.groups = s'.groups := by
  have main : ∀ s : Segment, s.groups =
      (Text.pieces (·.kind == .bar) s.tokens).map fun ts =>
        (Segment.mk 0 ts).items.filter (· ≠ "") := by
    intro s
    rw [← map_tokens_cut, List.map_map, groups]
    exact List.map_congr_left fun part _ => congrArg (List.filter _) (items_congr rfl)
  rw [main, main, h]

theorem trimmed_congr {s s' : Segment} (h : s.tokens = s'.tokens) : s.trimmed = s'.trimmed := by
  simp only [trimmed, text, h]

theorem tokens_withoutTag (s : Segment) :
    s.withoutTag.tokens = match s.tokens with
      | .word _ :: .fieldMark :: rest => rest
      | [.word _] => []
      | tokens => tokens := by
  unfold withoutTag
  split <;> simp_all

theorem Lexed.withoutTag {s : Segment} (h : s.Lexed) : s.withoutTag.Lexed := by
  unfold Segment.withoutTag
  split
  next htokens =>
    refine Token.Lexed.of_infix h ?_
    rw [htokens]
    exact ((List.suffix_cons _ _).trans (List.suffix_cons _ _)).isInfix
  next => exact Token.Lexed.nil
  next => exact h

theorem Lexed.fields_eq {s : Segment} (h : s.Lexed) :
    s.fields = Text.pieces (· == '\'') s.text :=
  Token.fieldsOf_eq_pieces h.valid

theorem Lexed.isBlank_iff {s : Segment} (h : s.Lexed) :
    s.isBlank = true ↔ ∀ c ∈ s.text, Text.isBlank c = true := by
  simp only [isBlank, List.all_eq_true, text, Token.textOf, List.mem_flatMap]
  constructor
  · rintro hall c ⟨t, ht, hc⟩
    have hgap := hall t ht
    cases t with
    | gap blanks => exact (h.valid _ ht).2 c hc
    | _ => simp [Token.isGap] at hgap
  · intro hall t ht
    have hblank : ∀ c ∈ t.text, Text.isBlank c = true := fun c hc => hall c ⟨t, ht, hc⟩
    cases t with
    | gap blanks => rfl
    | word letters =>
      obtain ⟨hne, hletter⟩ := h.valid _ ht
      obtain ⟨c, cs, rfl⟩ := List.exists_cons_of_ne_nil hne
      simp [Token.isBlank_of_isLetter (hletter c (by simp)), Token.text] at hblank
    | sectionMark | columnMark | fieldMark | bar | comma =>
      simp only [Token.text, List.mem_cons, List.not_mem_nil, or_false, or_self, forall_eq]
        at hblank
      exact absurd hblank (by decide)

end Segment

end Blueprint
