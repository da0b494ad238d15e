import Blueprint.Proofs.Token.Lexing

/-!
# Runs of quotes

A run of quotes is read in pairs from left to right, and the quote that is left over when their number
is odd is read last. Of all token lists with the same text, only the reading does so with every run,
while it also leaves no gap beside a gap and no word beside a word.
-/

namespace Blueprint.Token

def quoteKinds (n : Nat) : List Kind :=
  List.replicate (n / 2) .columnMark ++ List.replicate (n % 2) .fieldMark

theorem quoteKinds_add_two (n : Nat) : quoteKinds (n + 2) = .columnMark :: quoteKinds n := by
  have hhalf : (n + 2) / 2 = n / 2 + 1 := by omega
  have hrest : (n + 2) % 2 = n % 2 := by omega
  rw [quoteKinds, hhalf, hrest, List.replicate_succ]
  rfl

/-- So many quotes between two parts of a text, where neither part has a quote beside them. -/
structure QuoteRun (source before : List Char) (n : Nat) (after : List Char) : Prop where
  pos : 0 < n
  source_eq : source = before ++ List.replicate n '\'' ++ after
  starts : before.getLast? ≠ some '\''
  ends : after.head? ≠ some '\''

theorem exists_quotes (s : List Char) :
    ∃ n after, s = List.replicate n '\'' ++ after ∧ after.head? ≠ some '\'' := by
  induction s with
  | nil => exact ⟨0, [], rfl, by simp⟩
  | cons c s ih =>
    by_cases hc : c = '\''
    · obtain ⟨n, after, rfl, hafter⟩ := ih
      exact ⟨n + 1, after, by rw [hc]; rfl, hafter⟩
    · exact ⟨0, c :: s, rfl, by simpa using hc⟩

/-- Neighbours of one kind are marks. -/
def Separate (kind next : Kind) : Prop :=
  kind = next → kind ≠ .gap ∧ kind ≠ .word

/-- What keeps neighbours apart, beside their kinds, is that no quote follows a single one. -/
theorem apart_iff {t u : Token} :
    Apart t u ↔ Separate t.kind u.kind ∧ (t = fieldMark → u.isQuote = false) := by
  cases t with
  | gap | word | fieldMark => cases u <;> simp [Apart, Separate, kind, isQuote]
  | _ => simp [Apart, Separate, kind]

section Reading

theorem lex_quotes_append (n : Nat) {after : List Char} (h : after.head? ≠ some '\'') :
    lex (List.replicate n '\'' ++ after) = lex (List.replicate n '\'') ++ lex after := by
  induction n using Nat.twoStepInduction with
  | zero => rfl
  | one => exact lex_cons fun _ => h
  | more n ih _ => exact congrArg (columnMark :: ·) ih

theorem map_kind_lex_quotes (n : Nat) :
    (lex (List.replicate n '\'')).map kind = quoteKinds n := by
  induction n using Nat.twoStepInduction with
  | zero => rfl
  | one => rfl
  | more n ih _ =>
    rw [quoteKinds_add_two, ← ih]
    rfl

/-- The text of a token list ends with a quote if a quote mark is its last token. -/
theorem getLast?_textOf_eq_quote {ts : List Token} {t : Token} (ht : t ∈ ts.getLast?)
    (hq : t.isQuote = true) : (textOf ts).getLast? = some '\'' := by
  obtain ⟨front, rfl⟩ := List.getLast?_eq_some_iff.mp ht
  have hlast : t.text.getLast? = some '\'' := by cases t <;> simp_all [isQuote, text]
  simp [List.getLast?_append, hlast]

theorem lex_append_quote {l : List Char} (h : l.getLast? ≠ some '\'') (r : List Char) :
    lex (l ++ '\'' :: r) = lex l ++ lex ('\'' :: r) := by
  have hlexed : Lexed (lex l ++ lex ('\'' :: r)) := by
    refine (lexed_lex l).append (lexed_lex _) fun t ht u hu => ?_
    have hbefore : t.isQuote = false := by
      by_contra hq
      have hlast := getLast?_textOf_eq_quote ht (by simpa using hq)
      rw [textOf_lex] at hlast
      exact h hlast
    obtain ⟨mark, later, hlex, hmark⟩ := lex_quote r
    obtain rfl : mark = u := by simpa [hlex] using hu
    refine apart_iff.mpr ⟨fun hkind => ?_, fun ht => ?_⟩
    · rw [hkind]
      cases mark <;> simp [kind, isQuote] at hmark ⊢
    · rw [ht] at hbefore
      cases hbefore
  have htext : textOf (lex l ++ lex ('\'' :: r)) = l ++ '\'' :: r := by
    rw [textOf_append, textOf_lex, textOf_lex]
  rw [← htext, lex_textOf hlexed]

theorem QuoteRun.lex_eq {source before after : List Char} {n : Nat}
    (h : QuoteRun source before n after) :
    lex source = lex before ++ lex (List.replicate n '\'') ++ lex after := by
  obtain ⟨m, rfl⟩ := Nat.exists_eq_succ_of_ne_zero h.pos.ne'
  rw [h.source_eq, List.append_assoc, List.append_assoc, ← lex_quotes_append _ h.ends]
  exact lex_append_quote h.starts (List.replicate m '\'' ++ after)

end Reading

/-- Each run of quotes in the text of a token list is divided into pairs from the left. -/
def Paired (ts : List Token) : Prop :=
  ∀ before n after, QuoteRun (textOf ts) before n after →
    ∃ front marks back, ts = front ++ marks ++ back ∧ textOf front = before ∧
      marks.map kind = quoteKinds n

section Paired

variable {t : Token} {ts : List Token}

theorem Paired.head?_ne (h : Paired (fieldMark :: ts)) : (textOf ts).head? ≠ some '\'' := by
  obtain ⟨n, after, htext, hafter⟩ := exists_quotes (textOf ts)
  cases n with
  | zero =>
    rw [htext]
    exact hafter
  | succ n =>
    have hrun : QuoteRun (textOf (fieldMark :: ts)) [] (n + 2) after :=
      ⟨by omega, by rw [textOf_cons, htext]; rfl, by simp, hafter⟩
    obtain ⟨front, marks, back, hts, hfront, hkinds⟩ := h [] (n + 2) after hrun
    -- The first pair of this run would be the single quote mark.
    rw [quoteKinds_add_two, List.map_eq_cons_iff] at hkinds
    obtain ⟨u, more, rfl, hu, -⟩ := hkinds
    cases front with
    | nil =>
      obtain rfl : fieldMark = u := List.head_eq_of_cons_eq hts
      simp [kind] at hu
    | cons v front =>
      obtain rfl : fieldMark = v := List.head_eq_of_cons_eq hts
      simp [text] at hfront

theorem Paired.tail (hvalid : t.Valid) (h : Paired (t :: ts)) : Paired ts := by
  intro before n after hrun
  by_cases hlast : (t.text ++ before).getLast? = some '\''
  · -- The quotes of the first token belong to the run.
    obtain rfl : before = [] := by
      by_contra hne
      rw [List.getLast?_append_of_ne_nil _ hne] at hlast
      exact hrun.starts hlast
    have hhead : (textOf ts).head? = some '\'' := by
      obtain ⟨m, rfl⟩ := Nat.exists_eq_succ_of_ne_zero hrun.pos.ne'
      rw [hrun.source_eq]
      rfl
    cases t with
    | columnMark =>
      have hlonger : QuoteRun (textOf (columnMark :: ts)) [] (n + 2) after :=
        ⟨by omega, by rw [textOf_cons, hrun.source_eq]; rfl, by simp, hrun.ends⟩
      obtain ⟨front, marks, back, hts, hfront, hkinds⟩ := h [] (n + 2) after hlonger
      rw [quoteKinds_add_two, List.map_eq_cons_iff] at hkinds
      obtain ⟨u, more, rfl, -, hkinds⟩ := hkinds
      cases front with
      | nil => exact ⟨[], more, back, List.tail_eq_of_cons_eq hts, rfl, hkinds⟩
      | cons v front =>
        obtain rfl : columnMark = v := List.head_eq_of_cons_eq hts
        simp [text] at hfront
    | fieldMark => exact absurd hhead h.head?_ne
    | sectionMark | bar | comma => simp [text] at hlast
    | gap blanks =>
      have hblank := hvalid.2 '\'' (List.mem_of_getLast? (by simpa [text] using hlast))
      exact absurd hblank (by decide)
    | word letters =>
      have hletter := hvalid.2 '\'' (List.mem_of_getLast? (by simpa [text] using hlast))
      exact absurd hletter (by decide)
  · have hbehind : QuoteRun (textOf (t :: ts)) (t.text ++ before) n after :=
      ⟨hrun.pos, by rw [textOf_cons, hrun.source_eq]; simp, hlast, hrun.ends⟩
    obtain ⟨front, marks, back, hts, hfront, hkinds⟩ := h _ n after hbehind
    cases front with
    | nil =>
      exact absurd (List.append_eq_nil_iff.mp hfront.symm).1 (text_ne_nil hvalid)
    | cons u front =>
      obtain rfl : t = u := List.head_eq_of_cons_eq hts
      exact ⟨front, marks, back, List.tail_eq_of_cons_eq hts, List.append_cancel_left hfront,
        hkinds⟩

theorem Paired.lexed (hvalid : ∀ t ∈ ts, t.Valid)
    (hseparate : ts.IsChain fun t u => Separate t.kind u.kind) (h : Paired ts) : Lexed ts := by
  induction ts with
  | nil => exact .nil
  | cons t ts ih =>
    have ht := hvalid t List.mem_cons_self
    have htail := ih (fun u hu => hvalid u (List.mem_cons_of_mem t hu)) hseparate.tail (h.tail ht)
    refine htail.cons ht fun u hu => ?_
    refine apart_iff.mpr ⟨hseparate.rel_head? hu, ?_⟩
    rintro rfl
    have hhead := h.head?_ne
    obtain ⟨rest, rfl⟩ := List.head?_eq_some_iff.mp hu
    cases u <;> simp_all [isQuote, text]

end Paired

end Blueprint.Token
