import Blueprint.Proofs.Segment.Stretch

/-!
# Longest matches

A scanner has one pattern for each kind of token. Wherever it stands it takes the longest text that
any of the patterns matches there; where none of them matches, it skips some characters that are then
in no token. In no text is there anything to skip, and what a scanner takes are the tokens of the text.
-/

namespace Blueprint.Token

/-- The texts that the pattern of a kind matches. -/
def Kind.Matches : Kind → List Char → Prop
  | sectionMark, text => text = [';']
  | columnMark, text => text = ['\'', '\'']
  | fieldMark, text => text = ['\'']
  | bar, text => text = ['|']
  | comma, text => text = [',']
  | gap, text => text ≠ [] ∧ ∀ c ∈ text, Text.isBlank c = true
  | word, text => text ≠ [] ∧ ∀ c ∈ text, isLetter c = true

section Matches

variable {kind other : Kind} {text : List Char} {t : Token}

theorem matches_text (h : t.Valid) : t.kind.Matches t.text := by
  cases t with
  | gap | word => exact h
  | _ => rfl

theorem exists_of_matches (h : kind.Matches text) :
    ∃ t : Token, t.Valid ∧ t.kind = kind ∧ t.text = text := by
  cases kind with
  | sectionMark => exact ⟨.sectionMark, trivial, rfl, h.symm⟩
  | columnMark => exact ⟨.columnMark, trivial, rfl, h.symm⟩
  | fieldMark => exact ⟨.fieldMark, trivial, rfl, h.symm⟩
  | bar => exact ⟨.bar, trivial, rfl, h.symm⟩
  | comma => exact ⟨.comma, trivial, rfl, h.symm⟩
  | gap => exact ⟨.gap text, h, rfl, rfl⟩
  | word => exact ⟨.word text, h, rfl, rfl⟩

theorem lex_text (h : t.Valid) : lex t.text = [t] := by
  have hlexed : Lexed [t] := Lexed.nil.cons h (by simp)
  simpa using lex_textOf hlexed

theorem Kind.eq_of_matches (h : kind.Matches text) (hother : other.Matches text) :
    kind = other := by
  obtain ⟨t, ht, rfl, rfl⟩ := exists_of_matches h
  obtain ⟨u, hu, rfl, htext⟩ := exists_of_matches hother
  have htokens : [u] = [t] := by rw [← lex_text hu, htext, lex_text ht]
  rw [List.head_eq_of_cons_eq htokens]

end Matches

/-- A text starts with a match of the kind, and with no longer match of any kind. -/
structure LongestMatch (source : List Char) (kind : Kind) (text : List Char) : Prop where
  begins : text <+: source
  fits : kind.Matches text
  longest : ∀ other longer, longer <+: source → Kind.Matches other longer →
    longer.length ≤ text.length

section LongestMatch

variable {source text : List Char} {t : Token} {ts : List Token}

theorem LongestMatch.unique {kind other : Kind} {longer : List Char}
    (h : LongestMatch source kind text) (hother : LongestMatch source other longer) :
    kind = other ∧ text = longer := by
  have hle := hother.longest kind text h.begins h.fits
  have hge := h.longest other longer hother.begins hother.fits
  have htext : text = longer :=
    (List.prefix_of_prefix_length_le h.begins hother.begins hle).eq_of_length (hle.antisymm hge)
  subst htext
  exact ⟨Kind.eq_of_matches h.fits hother.fits, rfl⟩

theorem exists_consGap (c : Char) (ts : List Token) :
    ∃ more rest, consGap c ts = gap (c :: more) :: rest := by
  unfold consGap
  split
  · exact ⟨_, _, rfl⟩
  · exact ⟨[], _, rfl⟩

theorem exists_consWord (c : Char) (ts : List Token) :
    ∃ more rest, consWord c ts = word (c :: more) :: rest := by
  unfold consWord
  split
  · exact ⟨_, _, rfl⟩
  · exact ⟨[], _, rfl⟩

theorem exists_lex_blanks {blanks : List Char} (hne : blanks ≠ [])
    (hblank : ∀ c ∈ blanks, Text.isBlank c = true) (rest : List Char) :
    ∃ more later, lex (blanks ++ rest) = gap (blanks ++ more) :: later := by
  induction blanks with
  | nil => exact absurd rfl hne
  | cons c blanks ih =>
    have hc : Text.isBlank c = true := hblank c List.mem_cons_self
    rw [List.cons_append, lex_cons_of_isBlank hc]
    by_cases hnil : blanks = []
    · subst hnil
      exact exists_consGap c (lex rest)
    · obtain ⟨more, later, hlex⟩ := ih hnil fun d hd => hblank d (List.mem_cons_of_mem c hd)
      exact ⟨more, later, by rw [hlex]; rfl⟩

theorem exists_lex_letters {letters : List Char} (hne : letters ≠ [])
    (hletter : ∀ c ∈ letters, isLetter c = true) (rest : List Char) :
    ∃ more later, lex (letters ++ rest) = word (letters ++ more) :: later := by
  induction letters with
  | nil => exact absurd rfl hne
  | cons c letters ih =>
    have hc : isLetter c = true := hletter c List.mem_cons_self
    rw [List.cons_append, lex_cons_of_isLetter hc]
    by_cases hnil : letters = []
    · subst hnil
      exact exists_consWord c (lex rest)
    · obtain ⟨more, later, hlex⟩ := ih hnil fun d hd => hletter d (List.mem_cons_of_mem c hd)
      exact ⟨more, later, by rw [hlex]; rfl⟩

/-- The first token of a text is no shorter than any token whose text stands there. -/
theorem length_text_le {u : Token} (hu : u.Valid) {rest : List Char}
    (h : lex (u.text ++ rest) = t :: ts) : u.text.length ≤ t.text.length := by
  have ht : t.Valid := (lexed_lex (u.text ++ rest)).valid t (h ▸ List.mem_cons_self)
  have hpos : 0 < t.text.length := List.length_pos_iff.mpr (text_ne_nil ht)
  cases u with
  | sectionMark | fieldMark | bar | comma => exact hpos
  | columnMark =>
    have hpair : columnMark :: lex rest = t :: ts := h
    rw [← List.head_eq_of_cons_eq hpair]
  | gap blanks =>
    obtain ⟨more, later, hlex⟩ := exists_lex_blanks hu.1 hu.2 rest
    have hgap : gap (blanks ++ more) = t := List.head_eq_of_cons_eq (hlex.symm.trans h)
    simp [← hgap, text]
  | word letters =>
    obtain ⟨more, later, hlex⟩ := exists_lex_letters hu.1 hu.2 rest
    have hword : word (letters ++ more) = t := List.head_eq_of_cons_eq (hlex.symm.trans h)
    simp [← hword, text]

theorem longestMatch_of_lex (h : lex source = t :: ts) : LongestMatch source t.kind t.text where
  begins := ⟨textOf ts, by rw [← textOf_lex source, h, textOf_cons]⟩
  fits := matches_text ((lexed_lex source).valid t (h ▸ List.mem_cons_self))
  longest := by
    rintro other longer ⟨rest, rfl⟩ hfits
    obtain ⟨u, hu, -, rfl⟩ := exists_of_matches hfits
    exact length_text_le hu h

theorem exists_longestMatch (hne : source ≠ []) :
    ∃ t ts, lex source = t :: ts ∧ LongestMatch source t.kind t.text := by
  cases hlex : lex source with
  | nil =>
    have hnil := textOf_lex source
    rw [hlex] at hnil
    exact absurd hnil.symm hne
  | cons t ts => exact ⟨t, ts, rfl, longestMatch_of_lex hlex⟩

end LongestMatch

/-- What a scanner passes at once, with the kind of token it takes it for unless it skips it. -/
structure Step where
  kind? : Option Kind
  text : List Char

def Step.ofToken (t : Token) : Step :=
  ⟨some t.kind, t.text⟩

/-- The steps of a scanner that passes through a whole text. -/
inductive Scan : List Char → List Step → Prop
  | done : Scan [] []
  | taken {text rest : List Char} {kind : Kind} {steps : List Step}
      (hlongest : LongestMatch (text ++ rest) kind text) (hrest : Scan rest steps) :
      Scan (text ++ rest) (⟨some kind, text⟩ :: steps)
  | skipped {text rest : List Char} {steps : List Step} (hne : text ≠ [])
      (hnone : ∀ kind start, start <+: text ++ rest → ¬ Kind.Matches kind start)
      (hrest : Scan rest steps) : Scan (text ++ rest) (⟨none, text⟩ :: steps)

def kindsTaken (steps : List Step) : List Kind :=
  steps.filterMap Step.kind?

/-- The tokens that were taken, each with the bytes where the scanner stood before and after it. -/
def rangesTaken (start : Nat) : List Step → List TokenRange
  | [] => []
  | step :: rest =>
    let stop := start + Text.byteSize step.text
    match step.kind? with
    | some kind => ⟨kind, start, stop⟩ :: rangesTaken stop rest
    | none => rangesTaken stop rest

section Scan

variable {source : List Char} {steps : List Step}

theorem Lexed.scan {ts : List Token} (h : Lexed ts) : Scan (textOf ts) (ts.map Step.ofToken) := by
  induction ts with
  | nil => exact .done
  | cons t ts ih => exact .taken (longestMatch_of_lex (lex_textOf h)) (ih h.tail)

theorem scan_lex (source : List Char) : Scan source ((lex source).map Step.ofToken) := by
  simpa only [textOf_lex] using (lexed_lex source).scan

/-- Each step of a scanner takes the next token. -/
theorem Scan.steps_eq (h : Scan source steps) : steps = (lex source).map Step.ofToken := by
  induction h with
  | done => rfl
  | @taken text rest kind steps hlongest _ ih =>
    have hne : text ++ rest ≠ [] := by
      obtain ⟨t, ht, -, rfl⟩ := exists_of_matches hlongest.fits
      exact List.append_ne_nil_of_left_ne_nil (text_ne_nil ht) rest
    obtain ⟨t, ts, hlex, hfirst⟩ := exists_longestMatch hne
    obtain ⟨rfl, rfl⟩ := hlongest.unique hfirst
    -- Behind the first token the reading goes on with what is left of the text.
    have hlexed : Lexed (t :: ts) := hlex ▸ lexed_lex (t.text ++ rest)
    have hrest : textOf ts = rest := by
      have hsource := textOf_lex (t.text ++ rest)
      rw [hlex, textOf_cons] at hsource
      exact List.append_cancel_left hsource
    rw [ih, hlex, ← hrest, lex_textOf hlexed.tail]
    rfl
  | @skipped text rest steps hne hnone _ _ =>
    obtain ⟨t, ts, -, hfirst⟩ :=
      exists_longestMatch (List.append_ne_nil_of_left_ne_nil hne rest)
    exact absurd hfirst.fits (hnone t.kind t.text hfirst.begins)

theorem kindsTaken_ofToken (ts : List Token) : kindsTaken (ts.map Step.ofToken) = ts.map kind := by
  simp [kindsTaken, Step.ofToken, Function.comp_def]

theorem rangesTaken_ofToken (start : Nat) (ts : List Token) :
    rangesTaken start (ts.map Step.ofToken) = ranges start ts := by
  induction ts generalizing start with
  | nil => rfl
  | cons t ts ih =>
    have hrest := ih (start + t.byteSize)
    rw [ranges_cons, ← hrest]
    rfl

end Scan

end Blueprint.Token
