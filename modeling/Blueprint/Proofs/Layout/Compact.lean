import Blueprint.Layout
import Blueprint.Proofs.Token.Lexing

/-!
# The compact form, character by character

Compacting reads tokens, but what it writes can be told from the characters alone: a scan that
remembers whether the last character written lets a space follow and whether blanks came after it.
A text is its own compact form exactly if each blank in it is a single space between two characters
that are neither blanks nor edges, where the two ends of the text count as edges.
-/

namespace Blueprint.Layout

open Text (isBlank)

/-- The characters beside which blanks mean nothing. -/
def isEdge (c : Char) : Bool :=
  c == ';' || c == '\''

/-- The compact form of what follows a character: `joins` says that a space may stand after it and
`gap` that blanks have been read since. -/
def squeeze (joins gap : Bool) : List Char → List Char
  | [] => []
  | c :: rest =>
    if isBlank c then squeeze joins true rest
    else (if joins && gap && !isEdge c then [' '] else []) ++ c :: squeeze (!isEdge c) false rest

theorem isEdge_of_isBlank {c : Char} (h : isBlank c = true) : isEdge c = false := by
  obtain ⟨h₁, h₂, -⟩ := Token.ne_of_isMark_eq_false (Token.isMark_of_isBlank h)
  simp [isEdge, h₁, h₂]

theorem isBlank_of_isEdge {c : Char} (h : isEdge c = true) : isBlank c = false := by
  by_contra hb
  simp [isEdge_of_isBlank (Bool.not_eq_false _ ▸ hb)] at h

theorem squeeze_blank {c : Char} (h : isBlank c = true) (joins gap : Bool) (rest : List Char) :
    squeeze joins gap (c :: rest) = squeeze joins true rest := by
  simp [squeeze, h]

theorem squeeze_edge {c : Char} (h : isEdge c = true) (joins gap : Bool) (rest : List Char) :
    squeeze joins gap (c :: rest) = c :: squeeze false false rest := by
  simp [squeeze, isBlank_of_isEdge h, h]

theorem squeeze_false (gap : Bool) (s : List Char) :
    squeeze false gap s = squeeze false false s := by
  induction s generalizing gap with
  | nil => rfl
  | cons c rest ih =>
    by_cases h : isBlank c = true
    · rw [squeeze_blank h, squeeze_blank h]
    · simp [squeeze, h]

theorem squeeze_blanks {blanks : List Char} (h : ∀ c ∈ blanks, isBlank c = true)
    (hne : blanks ≠ []) (joins gap : Bool) (rest : List Char) :
    squeeze joins gap (blanks ++ rest) = squeeze joins true rest := by
  induction blanks generalizing gap with
  | nil => exact absurd rfl hne
  | cons c blanks ih =>
    rw [List.cons_append, squeeze_blank (h c (by simp))]
    by_cases hnil : blanks = []
    · simp [hnil]
    · exact ih (fun d hd => h d (by simp [hd])) hnil true

theorem squeeze_nil_of_blanks {blanks : List Char} (h : ∀ c ∈ blanks, isBlank c = true)
    (joins gap : Bool) : squeeze joins gap blanks = [] := by
  by_cases hne : blanks = []
  · subst hne
    rfl
  · simpa [squeeze] using squeeze_blanks h hne joins gap []

theorem squeeze_false_blanks {blanks : List Char} (h : ∀ c ∈ blanks, isBlank c = true)
    (gap : Bool) (r : List Char) : squeeze false gap (blanks ++ r) = squeeze false gap r := by
  by_cases hne : blanks = []
  · simp [hne]
  · rw [squeeze_blanks h hne, squeeze_false, squeeze_false gap]

/-- Two texts that are squeezed alike in every state stay so behind a common beginning. -/
theorem squeeze_append_congr {s t : List Char}
    (h : ∀ joins gap, squeeze joins gap s = squeeze joins gap t) (l : List Char)
    (joins gap : Bool) : squeeze joins gap (l ++ s) = squeeze joins gap (l ++ t) := by
  induction l generalizing joins gap with
  | nil => exact h joins gap
  | cons c l ih => simp only [List.cons_append, squeeze, ih]

theorem squeeze_append_edge {c : Char} (h : isEdge c = true) (l r : List Char)
    (joins gap : Bool) :
    squeeze joins gap (l ++ c :: r) = squeeze joins gap l ++ c :: squeeze false false r := by
  induction l generalizing joins gap with
  | nil => exact squeeze_edge h joins gap r
  | cons d l ih =>
    by_cases hd : isBlank d = true
    · simpa [squeeze_blank hd] using ih joins true
    · simp [squeeze, hd, ih]

section Compact

def joinsAfter : Option Token → Bool
  | some t => !t.absorbsGap
  | none => false

theorem isEdge_of_isLetter {c : Char} (h : Token.isLetter c = true) : isEdge c = false := by
  obtain ⟨h₁, h₂, -⟩ := Token.ne_of_isMark_eq_false (Token.isMark_of_isLetter h)
  simp [isEdge, h₁, h₂]

theorem squeeze_true_letters {w : List Char} (hw : ∀ c ∈ w, Token.isLetter c = true)
    (rest : List Char) : squeeze true false (w ++ rest) = w ++ squeeze true false rest := by
  induction w with
  | nil => rfl
  | cons c w ih =>
    have hc : Token.isLetter c = true := hw c (by simp)
    have hrest := ih fun d hd => hw d (by simp [hd])
    simp [squeeze, Token.isBlank_of_isLetter hc, isEdge_of_isLetter hc, hrest]

theorem squeeze_text {t : Token} (hvalid : t.Valid) (hgap : t.isGap = false) (joins gap : Bool)
    (rest : List Char) :
    squeeze joins gap (t.text ++ rest) =
      (if joins && gap && !t.absorbsGap then [' '] else []) ++ t.text ++
        squeeze (!t.absorbsGap) false rest := by
  cases t with
  | gap blanks => simp [Token.isGap] at hgap
  | sectionMark | fieldMark | columnMark | bar | comma =>
    simp [Token.text, squeeze, Token.absorbsGap, isEdge, show isBlank ';' = false by decide,
      show isBlank '\'' = false by decide, show isBlank '|' = false by decide,
      show isBlank ',' = false by decide]
  | word letters =>
    obtain ⟨hne, hletter⟩ := hvalid
    obtain ⟨c, cs, rfl⟩ := List.exists_cons_of_ne_nil hne
    have hc : Token.isLetter c = true := hletter c (by simp)
    have hcs : squeeze true false (cs ++ rest) = cs ++ squeeze true false rest :=
      squeeze_true_letters (fun d hd => hletter d (List.mem_cons_of_mem c hd)) rest
    simp [Token.text, squeeze, Token.absorbsGap, Token.isBlank_of_isLetter hc,
      isEdge_of_isLetter hc, hcs]

theorem compactAfter_cons {t : Token} (hgap : t.isGap = false) (before : Option Token)
    (rest : List Token) :
    compactAfter before (t :: rest) = t.text ++ compactAfter (some t) rest := by
  cases t <;> simp_all [Token.isGap, compactAfter]

theorem compactAfter_eq_squeeze : ∀ (ts : List Token) (before : Option Token), Token.Lexed ts →
    (∀ t ∈ before, t.isGap = false) →
    compactAfter before ts = squeeze (joinsAfter before) false (Token.textOf ts)
  | [], _, _, _ => rfl
  | [.gap blanks], before, h, _ => by
    have hvalid := h.valid (.gap blanks) (by simp)
    rw [Token.textOf_cons, Token.text, squeeze_blanks hvalid.2 hvalid.1]
    cases before <;> rfl
  | .gap blanks :: t :: rest, before, h, _ => by
    have hvalid := h.valid (.gap blanks) (by simp)
    have hgap : t.isGap = false := by
      have := h.apart.rel_head? (y := t) (by simp)
      cases t <;> simp_all [Token.Apart, Token.isGap]
    have hrest := compactAfter_eq_squeeze rest (some t) h.tail.tail (by simpa using hgap)
    rw [Token.textOf_cons, Token.text, squeeze_blanks hvalid.2 hvalid.1, Token.textOf_cons,
      squeeze_text (h.valid t (by simp)) hgap, compactAfter, compactAfter_cons hgap, hrest]
    cases before <;> simp [separates, joinsAfter]
  | .sectionMark :: rest, before, h, _ | .columnMark :: rest, before, h, _
  | .fieldMark :: rest, before, h, _ | .bar :: rest, before, h, _ | .comma :: rest, before, h, _
  | .word _ :: rest, before, h, _ => by
    rw [compactAfter_cons rfl, Token.textOf_cons, squeeze_text (h.valid _ (by simp)) rfl,
      compactAfter_eq_squeeze rest _ h.tail (by simp [Token.isGap])]
    simp [joinsAfter]

theorem compact_eq_squeeze (s : List Char) : compact s = squeeze false false s := by
  rw [compact, compactAfter_eq_squeeze _ none (Token.lexed_lex s) (by simp), Token.textOf_lex]
  rfl

@[simp] theorem compact_nil : compact [] = [] := rfl

end Compact

section Tight

/-- What may stand side by side in a compact text. -/
def Fits (l r : Char) : Prop :=
  (isBlank l = true → l = ' ' ∧ isBlank r = false ∧ isEdge r = false) ∧
    (isBlank r = true → r = ' ' ∧ isBlank l = false ∧ isEdge l = false)

/-- Each blank is one space with a character on either side that is neither blank nor edge. The
marks put around the text stand for its ends. -/
def Tight (s : List Char) : Prop :=
  (';' :: (s ++ [';'])).IsChain Fits

theorem fits_of_not_isBlank {l r : Char} (hl : isBlank l = false) (hr : isBlank r = false) :
    Fits l r := by
  simp [Fits, hl, hr]

theorem chain_squeeze (s : List Char) {before : Char} (hbefore : isBlank before = false)
    (gap : Bool) : (before :: (squeeze (!isEdge before) gap s ++ [';'])).IsChain Fits := by
  have hend : isBlank ';' = false := by decide
  induction s generalizing before gap with
  | nil => simpa [squeeze] using fits_of_not_isBlank hbefore hend
  | cons c rest ih =>
    by_cases hc : isBlank c = true
    · rw [squeeze_blank hc]
      exact ih hbefore true
    · have hc : isBlank c = false := by simpa using hc
      have hrest := ih hc false
      have hspace : isBlank ' ' = true := by decide
      cases gap <;> cases hb : isEdge before <;> cases hce : isEdge c <;>
        simp_all [squeeze, Fits]

theorem tight_compact (s : List Char) : Tight (compact s) := by
  rw [compact_eq_squeeze]
  exact chain_squeeze s (show isBlank ';' = false by decide) false

theorem squeeze_eq_self : ∀ (s : List Char) {before : Char}, isBlank before = false →
    (before :: (s ++ [';'])).IsChain Fits → squeeze (!isEdge before) false s = s
  | [], _, _, _ => rfl
  | [c], before, hbefore, h => by
    have hc : isBlank c = false := by
      by_contra hc
      have hfits : Fits c ';' := by simp_all
      simp_all [Fits, isEdge]
    simp [squeeze, hc]
  | c :: d :: rest, before, hbefore, h => by
    obtain ⟨hbc, hcd, hrest⟩ : Fits before c ∧ Fits c d ∧ (d :: (rest ++ [';'])).IsChain Fits := by
      simpa using h
    by_cases hc : isBlank c = true
    · obtain ⟨rfl, hd, hde⟩ := hcd.1 hc
      have hb := (hbc.2 hc).2.2
      have ih := squeeze_eq_self rest hd hrest
      rw [hde] at ih
      rw [squeeze_blank hc]
      simpa [squeeze, hd, hb, hde] using ih
    · have hc : isBlank c = false := by simpa using hc
      have ih := squeeze_eq_self (d :: rest) hc (by simpa using ⟨hcd, hrest⟩)
      simpa [squeeze, hc] using ih

theorem Tight.compact_eq {s : List Char} (h : Tight s) : compact s = s := by
  rw [compact_eq_squeeze]
  exact squeeze_eq_self s (show isBlank ';' = false by decide) h

theorem compact_compact (s : List Char) : compact (compact s) = compact s :=
  (tight_compact s).compact_eq

theorem tight_nil : Tight [] := by
  simpa [Tight] using fits_of_not_isBlank (l := ';') (r := ';') (by decide) (by decide)

theorem Tight.head? {s : List Char} (h : Tight s) : ∀ c ∈ s.head?, isBlank c = false := by
  intro c hc
  cases s with
  | nil => simp at hc
  | cons d rest =>
    obtain rfl : d = c := by simpa using hc
    have hfits : Fits ';' d := by simp_all [Tight]
    by_contra hb
    simpa [isEdge] using (hfits.2 (by simpa using hb)).2.2

theorem Tight.getLast? {s : List Char} (h : Tight s) : ∀ c ∈ s.getLast?, isBlank c = false := by
  intro c hc
  have hchain : (s ++ [';']).IsChain Fits := List.IsChain.tail h
  have hfits : Fits c ';' := (List.isChain_append.mp hchain).2.2 c hc ';' (by simp)
  by_contra hb
  simpa [isEdge] using (hfits.1 (by simpa using hb)).2.2

theorem Tight.blank {l r : List Char} {c : Char} (h : Tight (l ++ c :: r))
    (hc : isBlank c = true) :
    c = ' ' ∧ (∀ d ∈ l.getLast?, isBlank d = false ∧ isEdge d = false) ∧
      ∀ d ∈ r.head?, isBlank d = false ∧ isEdge d = false := by
  have hchain : ((';' :: l) ++ c :: (r ++ [';'])).IsChain Fits := by simpa [Tight] using h
  obtain ⟨-, hright, hbefore⟩ := List.isChain_append.mp hchain
  refine ⟨?_, fun d hd => ?_, fun d hd => ?_⟩
  · obtain ⟨d, hd⟩ : ∃ d, d ∈ (';' :: l).getLast? := by simp [List.getLast?_cons]
    exact ((hbefore d hd c rfl).2 hc).1
  · have hlast : d ∈ (';' :: l).getLast? := by simp [List.getLast?_cons, Option.mem_def.mp hd]
    exact ((hbefore d hlast c rfl).2 hc).2
  · have hfits : Fits c d := hright.rel_head? (by simp [Option.mem_def.mp hd])
    exact (hfits.1 hc).2

/-- A stretch of a tight text is tight if it starts and ends with characters that are not blank. -/
theorem tight_of_chain {s : List Char} (h : s.IsChain Fits)
    (hhead : ∀ c ∈ s.head?, isBlank c = false) (hlast : ∀ c ∈ s.getLast?, isBlank c = false) :
    Tight s := by
  have hend : isBlank ';' = false := by decide
  refine (h.append (.singleton _) fun c hc d hd => ?_).cons fun c hc => ?_
  · obtain rfl : ';' = d := by simpa using hd
    exact fits_of_not_isBlank (hlast c hc) hend
  · cases s with
    | nil =>
      obtain rfl : ';' = c := by simpa using hc
      exact fits_of_not_isBlank hend hend
    | cons d rest => exact fits_of_not_isBlank hend (hhead c (by simpa using hc))

theorem Tight.chain {s : List Char} (h : Tight s) : s.IsChain Fits :=
  (List.IsChain.tail h).left_of_append

theorem Tight.trim_of_infix {s part : List Char} (h : Tight s) (hp : part <:+: s) :
    Tight (Text.trim part) := by
  have hchain : (Text.trim part).IsChain Fits := h.chain.infix ((Text.trim_infix part).trans hp)
  exact tight_of_chain hchain Text.head?_trim Text.getLast?_trim

theorem Tight.join {l r : List Char} {c : Char} (hl : Tight l) (hc : isBlank c = false)
    (hr : Tight r) : Tight (l ++ c :: r) := by
  have hchain : (l ++ c :: r).IsChain Fits := by
    refine hl.chain.append (hr.chain.cons fun d hd => ?_) fun d hd e he => ?_
    · exact fits_of_not_isBlank hc (hr.head? d hd)
    · obtain rfl : c = e := by simpa using he
      exact fits_of_not_isBlank (hl.getLast? d hd) hc
  refine tight_of_chain hchain (fun d hd => ?_) fun d hd => ?_
  · cases l with
    | nil =>
      obtain rfl : c = d := by simpa using hd
      exact hc
    | cons e l => exact hl.head? d (by simpa using hd)
  · rw [List.getLast?_append, List.getLast?_cons] at hd
    cases hlast : r.getLast? with
    | none =>
      obtain rfl : c = d := by simpa [hlast] using hd
      exact hc
    | some e =>
      obtain rfl : e = d := by simpa [hlast] using hd
      exact hr.getLast? e hlast

end Tight

section Parts

variable {e : Char}

theorem pieces_squeeze (he : isEdge e = true) {s first : List Char} {others : List (List Char)}
    (h : Text.pieces (· == e) s = first :: others) (joins gap : Bool) :
    Text.pieces (· == e) (squeeze joins gap s) =
      squeeze joins gap first :: others.map (squeeze false false) := by
  induction s generalizing first others joins gap with
  | nil =>
    obtain ⟨rfl, rfl⟩ : first = [] ∧ others = [] := by simpa [Text.pieces, eq_comm] using h
    rfl
  | cons c rest ih =>
    cases hp : Text.pieces (· == e) rest with
    | nil => exact absurd hp (Text.pieces_ne_nil _ rest)
    | cons next later =>
      by_cases hc : c = e
      · subst hc
        obtain ⟨rfl, rfl⟩ : [] = first ∧ next :: later = others := by
          simpa [Text.pieces, hp] using h
        rw [squeeze_edge he]
        simp [Text.pieces, ih hp, squeeze]
      · obtain ⟨rfl, rfl⟩ : c :: next = first ∧ later = others := by
          simpa [Text.pieces, hp, hc] using h
        by_cases hb : isBlank c = true
        · rw [squeeze_blank hb, squeeze_blank hb, ih hp]
        · have hspace : ' ' ≠ e := by
            rintro rfl
            exact absurd he (by decide)
          have hplain : ∀ d ∈ (if joins && gap && !isEdge c then [' '] else []) ++ [c],
              (d == e) = false := by
            intro d hd
            split at hd
            · rcases List.mem_cons.mp hd with rfl | hd
              · simpa using hspace
              · simpa [List.mem_singleton.mp hd] using hc
            · simpa [List.mem_singleton.mp hd] using hc
          have hrest := ih hp (!isEdge c) false
          simp only [squeeze, hb, Bool.false_eq_true, if_false]
          rw [List.append_cons, Text.pieces_append hplain, hrest]
          simp

/-- The parts of a text between edges are compacted one by one: none is lost or made. -/
theorem pieces_compact (he : isEdge e = true) (s : List Char) :
    Text.pieces (· == e) (compact s) = (Text.pieces (· == e) s).map compact := by
  cases hp : Text.pieces (· == e) s with
  | nil => exact absurd hp (Text.pieces_ne_nil _ s)
  | cons first others =>
    rw [compact_eq_squeeze, pieces_squeeze he hp]
    simp [compact_eq_squeeze]

theorem compact_append_edge (he : isEdge e = true) (l r : List Char) :
    compact (l ++ e :: r) = compact l ++ e :: compact r := by
  simp only [compact_eq_squeeze]
  rw [squeeze_append_edge he]

theorem edge_not_mem_compact (he : isEdge e = true) {s : List Char} (h : e ∉ s) :
    e ∉ compact s := by
  have hpieces : Text.pieces (· == e) s = [s] := by
    apply Text.pieces_eq_singleton
    intro c hc
    simpa using fun heq : c = e => h (heq ▸ hc)
  have hcompact := pieces_compact he s
  rw [hpieces, List.map_singleton] at hcompact
  intro hmem
  have hpart : compact s ∈ Text.pieces (· == e) (compact s) := by simp [hcompact]
  exact Text.not_mem_of_mem_pieces hpart hmem

theorem trim_compact (s : List Char) : Text.trim (compact s) = compact s :=
  Text.trim_eq_self (tight_compact s).head? (tight_compact s).getLast?

theorem squeeze_eq_nil_iff {joins gap : Bool} {s : List Char} :
    squeeze joins gap s = [] ↔ ∀ c ∈ s, isBlank c = true := by
  induction s generalizing gap with
  | nil => simp [squeeze]
  | cons c rest ih =>
    by_cases hc : isBlank c = true
    · simp [squeeze_blank hc, ih, hc]
    · simp [squeeze, hc]

theorem compact_eq_nil_iff {s : List Char} : compact s = [] ↔ ∀ c ∈ s, isBlank c = true := by
  rw [compact_eq_squeeze, squeeze_eq_nil_iff]

end Parts

section Words

theorem squeeze_eq_cons {joins gap : Bool} {s out : List Char} {c : Char}
    (hc : isBlank c = false) (h : squeeze joins gap s = c :: out) :
    ∃ blanks rest, (∀ d ∈ blanks, isBlank d = true) ∧ s = blanks ++ c :: rest ∧
      out = squeeze (!isEdge c) false rest := by
  induction s generalizing gap with
  | nil => simp [squeeze] at h
  | cons d rest ih =>
    by_cases hd : isBlank d = true
    · rw [squeeze_blank hd] at h
      obtain ⟨blanks, tail, hblank, rfl, hout⟩ := ih h
      exact ⟨d :: blanks, tail, by simpa [hd] using hblank, rfl, hout⟩
    · by_cases hspace : (joins && gap && !isEdge d) = true
      · have hblank : ' ' = c := by
          have hout : ' ' = c ∧ d :: squeeze (!isEdge d) false rest = out := by
            simpa [squeeze, hd, hspace] using h
          exact hout.1
        rw [← hblank] at hc
        exact absurd hc (by decide)
      · obtain ⟨rfl, rfl⟩ : d = c ∧ squeeze (!isEdge d) false rest = out := by
          simpa [squeeze, hd, hspace] using h
        exact ⟨[], rest, by simp, rfl, rfl⟩

/-- Behind blanks, where a space may stand, nothing but an edge is written without a space. -/
theorem isEdge_of_squeeze_eq_cons {s out : List Char} {c : Char} (hc : isBlank c = false)
    (h : squeeze true true s = c :: out) : isEdge c = true := by
  induction s with
  | nil => simp [squeeze] at h
  | cons d rest ih =>
    by_cases hd : isBlank d = true
    · exact ih (by rwa [squeeze_blank hd] at h)
    · by_cases he : isEdge d = true
      · obtain ⟨rfl, -⟩ : d = c ∧ squeeze (!isEdge d) false rest = out := by
          simpa [squeeze, hd, he] using h
        exact he
      · have hout : ' ' = c ∧ d :: squeeze (!isEdge d) false rest = out := by
          simpa [squeeze, hd, he] using h
        rw [← hout.1] at hc
        exact absurd hc (by decide)

theorem squeeze_letters {w : List Char} (hw : ∀ c ∈ w, Token.isLetter c = true) (hne : w ≠ [])
    (rest : List Char) : squeeze false false (w ++ rest) = w ++ squeeze true false rest := by
  have htext := squeeze_text (t := .word w) ⟨hne, hw⟩ rfl false false rest
  simpa [Token.text, Token.absorbsGap] using htext

theorem squeeze_eq_letters {w s out : List Char} (hw : ∀ c ∈ w, Token.isLetter c = true)
    (h : squeeze true false s = w ++ out) :
    ∃ rest, s = w ++ rest ∧ squeeze true false rest = out := by
  induction w generalizing s with
  | nil => exact ⟨s, rfl, h⟩
  | cons c w ih =>
    have hc : Token.isLetter c = true := hw c (by simp)
    have hblank := Token.isBlank_of_isLetter hc
    have hedge := isEdge_of_isLetter hc
    cases s with
    | nil => simp [squeeze] at h
    | cons d rest =>
      by_cases hd : isBlank d = true
      · rw [squeeze_blank hd] at h
        have := isEdge_of_squeeze_eq_cons hblank h
        simp [hedge] at this
      · obtain ⟨rfl, hrest⟩ : d = c ∧ squeeze (!isEdge d) false rest = w ++ out := by
          simpa [squeeze, hd] using h
        rw [hedge] at hrest
        obtain ⟨tail, rfl, htail⟩ := ih (fun e he => hw e (by simp [he])) hrest
        exact ⟨tail, rfl, htail⟩

/-- A compact text starts with a word and a quote exactly if the text does, blanks aside. -/
theorem compact_eq_label_iff {w s : List Char} (hw : ∀ c ∈ w, Token.isLetter c = true)
    (hne : w ≠ []) :
    (∃ r, compact s = w ++ '\'' :: r) ↔
      ∃ l m r, (∀ c ∈ l, isBlank c = true) ∧ (∀ c ∈ m, isBlank c = true) ∧
        s = l ++ w ++ m ++ '\'' :: r := by
  have hquote : isEdge '\'' = true := by decide
  constructor
  · rintro ⟨r, hr⟩
    obtain ⟨c, w, rfl⟩ := List.exists_cons_of_ne_nil hne
    have hc : Token.isLetter c = true := hw c (by simp)
    rw [compact_eq_squeeze, List.cons_append] at hr
    obtain ⟨l, rest, hl, rfl, hrest⟩ := squeeze_eq_cons (Token.isBlank_of_isLetter hc) hr
    rw [isEdge_of_isLetter hc] at hrest
    obtain ⟨tail, rfl, htail⟩ := squeeze_eq_letters (fun d hd => hw d (by simp [hd])) hrest.symm
    obtain ⟨m, end', hm, rfl, -⟩ := squeeze_eq_cons (isBlank_of_isEdge hquote) htail
    exact ⟨l, m, end', hl, hm, by simp⟩
  · rintro ⟨l, m, r, hl, hm, rfl⟩
    refine ⟨squeeze false false r, ?_⟩
    rw [compact_eq_squeeze, List.append_assoc, List.append_assoc, squeeze_false_blanks hl,
      squeeze_letters hw hne, squeeze_append_edge hquote, squeeze_nil_of_blanks hm]
    rfl

end Words

end Blueprint.Layout
