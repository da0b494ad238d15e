import Blueprint.Proofs.Layout.Compact

/-!
# The compact form as a normal form

The compact form of a text can be told without tokens and without a scan. It has the characters of
the text that are not blank, each blank in it is a space that separates two of them, and two
neighbours of which neither is an edge are separated exactly if they were before. No other text has
these three properties.
-/

namespace Blueprint.Layout

open Text (isBlank)

def visible (s : List Char) : List Char :=
  s.filter (!isBlank ·)

/-- The blanks directly in front of the visible character with this number, or those at the end when
there are just so many of them. -/
def gap (s : List Char) (i : Nat) : List Char :=
  (Text.pieces (!isBlank ·) s)[i]?.getD []

/-- Neighbours in a text of which neither is an edge have a space between them in the other text
exactly if they have blanks between them in this one. -/
def SameGaps (s t : List Char) : Prop :=
  ∀ i l r, (visible s)[i]? = some l → (visible s)[i + 1]? = some r →
    isEdge l = false → isEdge r = false → (' ' ∈ gap t (i + 1) ↔ gap s (i + 1) ≠ [])

/-- Each blank is a space directly between two characters that are neither blanks nor edges. -/
def Separating (t : List Char) : Prop :=
  ∀ l c r, t = l ++ c :: r → isBlank c = true →
    c = ' ' ∧ (∃ d ∈ l.getLast?, isBlank d = false ∧ isEdge d = false) ∧
      ∃ d ∈ r.head?, isBlank d = false ∧ isEdge d = false

/-- The second text is the first one with all of its layout removed that separates nothing. -/
structure NormalForm (s t : List Char) : Prop where
  visible_eq : visible t = visible s
  separating : Separating t
  sameGaps : SameGaps s t

section Gaps

variable {before v : Char} {blanks blanks' r r' : List Char}

theorem visible_eq_nil_iff {s : List Char} : visible s = [] ↔ ∀ c ∈ s, isBlank c = true := by
  simp [visible, List.filter_eq_nil_iff]

theorem visible_eq_cons {s rest : List Char} (h : visible s = v :: rest) :
    ∃ blanks r, s = blanks ++ v :: r ∧ (∀ c ∈ blanks, isBlank c = true) ∧ isBlank v = false ∧
      visible r = rest := by
  obtain ⟨blanks, r, rfl, hblanks, hv, hr⟩ := List.filter_eq_cons_iff.mp h
  exact ⟨blanks, r, rfl, by simpa using hblanks, by simpa using hv, hr⟩

variable (hv : isBlank v = false) (hblanks : ∀ c ∈ blanks, isBlank c = true)

include hv

theorem visible_cons (r : List Char) : visible (v :: r) = v :: visible r := by
  simp [visible, hv]

include hblanks

theorem visible_blanks_cons (r : List Char) : visible (blanks ++ v :: r) = v :: visible r := by
  have hnone := visible_eq_nil_iff.mpr hblanks
  rw [visible] at hnone
  rw [visible, List.filter_append, hnone]
  exact visible_cons hv r

theorem pieces_blanks_cons (r : List Char) :
    Text.pieces (!isBlank ·) (blanks ++ v :: r) = blanks :: Text.pieces (!isBlank ·) r := by
  rw [Text.pieces_append_cons (by simpa using hv), Text.pieces_eq_singleton (by simpa using hblanks)]
  rfl

theorem gap_zero (r : List Char) : gap (blanks ++ v :: r) 0 = blanks := by
  rw [gap, pieces_blanks_cons hv hblanks]
  rfl

theorem gap_succ (r : List Char) (i : Nat) : gap (blanks ++ v :: r) (i + 1) = gap r i := by
  rw [gap, pieces_blanks_cons hv hblanks]
  rfl

omit hblanks in
theorem gap_cons_succ (r : List Char) (i : Nat) : gap (v :: r) (i + 1) = gap r i :=
  gap_succ hv (List.forall_mem_nil _) r i

theorem sameGaps_cons_iff (hbefore : isBlank before = false)
    (hblanks' : ∀ c ∈ blanks', isBlank c = true) :
    SameGaps (before :: (blanks ++ v :: r)) (before :: (blanks' ++ v :: r')) ↔
      (isEdge before = false → isEdge v = false → (' ' ∈ blanks' ↔ blanks ≠ [])) ∧
        SameGaps (v :: r) (v :: r') := by
  have hvisible : visible (before :: (blanks ++ v :: r)) = before :: visible (v :: r) := by
    rw [visible_cons hbefore, visible_blanks_cons hv hblanks, visible_cons hv]
  have hfirst : gap (before :: (blanks ++ v :: r)) 1 = blanks ∧
      gap (before :: (blanks' ++ v :: r')) 1 = blanks' := by
    rw [gap_cons_succ hbefore, gap_cons_succ hbefore, gap_zero hv hblanks, gap_zero hv hblanks']
    exact ⟨rfl, rfl⟩
  have hlater : ∀ i, gap (before :: (blanks ++ v :: r)) (i + 2) = gap (v :: r) (i + 1) ∧
      gap (before :: (blanks' ++ v :: r')) (i + 2) = gap (v :: r') (i + 1) := by
    intro i
    rw [gap_cons_succ hbefore, gap_cons_succ hbefore, gap_succ hv hblanks, gap_succ hv hblanks',
      gap_cons_succ hv, gap_cons_succ hv]
    exact ⟨rfl, rfl⟩
  constructor
  · intro h
    refine ⟨fun hb hve => ?_, fun i a b ha hb hae hbe => ?_⟩
    · have hgap := h 0 before v (by rw [hvisible]; rfl) (by rw [hvisible, visible_cons hv]; rfl)
        hb hve
      rwa [hfirst.1, hfirst.2] at hgap
    · have hgap := h (i + 1) a b (by rw [hvisible]; exact ha) (by rw [hvisible]; exact hb) hae hbe
      rwa [(hlater i).1, (hlater i).2] at hgap
  · rintro ⟨hhead, hrest⟩ i a b ha hb hae hbe
    rw [hvisible] at ha hb
    cases i with
    | zero =>
      obtain rfl : before = a := by simpa using ha
      obtain rfl : v = b := by simpa [visible_cons hv] using hb
      rw [hfirst.1, hfirst.2]
      exact hhead hae hbe
    | succ i =>
      rw [(hlater i).1, (hlater i).2]
      exact hrest i a b ha hb hae hbe

omit hv hblanks in
/-- Behind an edge the first gap does not count. -/
theorem sameGaps_edge_cons_iff {e : Char} (he : isEdge e = true) {s t : List Char} :
    SameGaps (e :: s) (e :: t) ↔ SameGaps s t := by
  have hblank := isBlank_of_isEdge he
  constructor
  · intro h i a b ha hb hae hbe
    have hgap := h (i + 1) a b (by rwa [visible_cons hblank]) (by rwa [visible_cons hblank]) hae hbe
    rwa [gap_cons_succ hblank, gap_cons_succ hblank] at hgap
  · intro h i a b ha hb hae hbe
    rw [visible_cons hblank] at ha hb
    cases i with
    | zero =>
      obtain rfl : e = a := by simpa using ha
      simp [he] at hae
    | succ i =>
      rw [gap_cons_succ hblank, gap_cons_succ hblank]
      exact h i a b ha hb hae hbe

end Gaps

section Scan

variable {before v : Char} {blanks s t : List Char}

theorem squeeze_blanks_cons (hv : isBlank v = false) (hblanks : ∀ c ∈ blanks, isBlank c = true)
    (joins : Bool) (r : List Char) :
    squeeze joins false (blanks ++ v :: r) =
      (if joins = true ∧ blanks ≠ [] ∧ isEdge v = false then [' '] else []) ++
        v :: squeeze (!isEdge v) false r := by
  by_cases hne : blanks = []
  · simp [hne, squeeze, hv]
  · rw [squeeze_blanks hblanks hne]
    cases joins <;> cases he : isEdge v <;> simp [squeeze, hv, he, hne]

theorem visible_squeeze (joins gap : Bool) (s : List Char) :
    visible (squeeze joins gap s) = visible s := by
  induction s generalizing joins gap with
  | nil => rfl
  | cons c rest ih =>
    by_cases hc : isBlank c = true
    · rw [squeeze_blank hc, ih]
      simp [visible, hc]
    · have hc : isBlank c = false := by simpa using hc
      have hspace : ∀ d ∈ (if joins && gap && !isEdge c then [' '] else []), isBlank d = true := by
        intro d hd
        split at hd
        · rw [List.mem_singleton.mp hd]
          decide
        · simp at hd
      simp only [squeeze, hc, Bool.false_eq_true, if_false]
      rw [visible_blanks_cons hc hspace, ih, visible_cons hc]

theorem sameGaps_squeeze (s : List Char) (hbefore : isBlank before = false) :
    SameGaps (before :: s) (before :: squeeze (!isEdge before) false s) := by
  generalize hvisible : visible s = vs
  induction vs generalizing s before with
  | nil =>
    intro i l r hl hr
    rw [visible_cons hbefore, hvisible] at hr
    simp at hr
  | cons v vs ih =>
    obtain ⟨blanks, r, rfl, hblanks, hv, hr⟩ := visible_eq_cons hvisible
    rw [squeeze_blanks_cons hv hblanks]
    refine (sameGaps_cons_iff hv hblanks hbefore fun c hc => ?_).mpr
      ⟨fun hb hve => ?_, ih r hv hr⟩
    · split at hc
      · rw [List.mem_singleton.mp hc]
        decide
      · simp at hc
    · by_cases hne : blanks = [] <;> simp [hb, hve, hne]

/-- A gap of a compact text is empty or one space, and a space is never beside an edge. -/
theorem gap_of_chain (hblanks : ∀ c ∈ blanks, isBlank c = true) {r : List Char}
    (h : (before :: (blanks ++ v :: r)).IsChain Fits) :
    blanks = [] ∨ blanks = [' '] ∧ isEdge before = false ∧ isEdge v = false := by
  match blanks, hblanks with
  | [], _ => exact .inl rfl
  | [c], hblanks =>
    obtain ⟨hbc, hcv, -⟩ : Fits before c ∧ Fits c v ∧ (v :: r).IsChain Fits := by simpa using h
    have hc := hblanks c (by simp)
    obtain ⟨rfl, -, hb⟩ := hbc.2 hc
    exact .inr ⟨rfl, hb, (hcv.1 hc).2.2⟩
  | c :: d :: rest, hblanks =>
    obtain ⟨-, hcd, -⟩ : Fits before c ∧ Fits c d ∧ (d :: (rest ++ v :: r)).IsChain Fits := by
      simpa using h
    have hd := (hcd.1 (hblanks c (by simp))).2.1
    simp [hblanks d (by simp)] at hd

/-- A compact text with the visible characters and the gaps of another is what the scan of that one
writes. -/
theorem eq_squeeze_of_sameGaps (hbefore : isBlank before = false)
    (hchain : (before :: (t ++ [';'])).IsChain Fits) (hvisible : visible t = visible s)
    (hgaps : SameGaps (before :: s) (before :: t)) : t = squeeze (!isEdge before) false s := by
  generalize hvs : visible s = vs at hvisible
  induction vs generalizing s t before with
  | nil =>
    have hblank := visible_eq_nil_iff.mp hvisible
    rw [squeeze_nil_of_blanks (visible_eq_nil_iff.mp hvs)]
    have hend : (t ++ [';']) = t ++ ';' :: [] := rfl
    rw [hend] at hchain
    rcases gap_of_chain hblank hchain with rfl | ⟨-, -, hedge⟩
    · rfl
    · exact absurd hedge (by decide)
  | cons v vs ih =>
    obtain ⟨blanks, r, rfl, hblanks, hv, hr⟩ := visible_eq_cons hvs
    obtain ⟨blanks', r', rfl, hblanks', -, hr'⟩ := visible_eq_cons hvisible
    obtain ⟨hhead, hrest⟩ := (sameGaps_cons_iff hv hblanks hbefore hblanks').mp hgaps
    have hchain : (before :: (blanks' ++ v :: (r' ++ [';']))).IsChain Fits := by simpa using hchain
    have hafter : (v :: (r' ++ [';'])).IsChain Fits :=
      hchain.infix (List.suffix_append (before :: blanks') _).isInfix
    have htail := ih hv hafter hrest hr hr'
    rw [squeeze_blanks_cons hv hblanks, ← htail]
    rcases gap_of_chain hblanks' hchain with rfl | ⟨rfl, hb, hve⟩
    · rw [if_neg]
      rintro ⟨hb, hne, hve⟩
      simpa [hne] using hhead (by simpa using hb) hve
    · have hne : blanks ≠ [] := (hhead hb hve).mp (by simp)
      simp [hb, hve, hne]

end Scan

theorem tight_iff_separating {t : List Char} : Tight t ↔ Separating t := by
  constructor
  · rintro h l c r rfl hc
    obtain ⟨hspace, hbefore, hafter⟩ := h.blank hc
    refine ⟨hspace, ?_, ?_⟩
    · cases hl : l.getLast? with
      | none =>
        obtain rfl := List.getLast?_eq_none_iff.mp hl
        simp [h.head? c (by simp)] at hc
      | some d => exact ⟨d, rfl, hbefore d hl⟩
    · cases r with
      | nil => simp [h.getLast? c (by simp)] at hc
      | cons d r => exact ⟨d, rfl, hafter d rfl⟩
  · intro h
    refine tight_of_chain (List.isChain_iff_forall_rel_of_append_cons_cons.mpr ?_) ?_ ?_
    · intro a b l r ht
      constructor
      · intro ha
        obtain ⟨hspace, -, d, hd, hafter⟩ := h l a (b :: r) ht ha
        obtain rfl : b = d := by simpa using hd
        exact ⟨hspace, hafter⟩
      · intro hb
        obtain ⟨hspace, ⟨d, hd, hbefore⟩, -⟩ := h (l ++ [a]) b r (by simpa using ht) hb
        obtain rfl : a = d := by simpa using hd
        exact ⟨hspace, hbefore⟩
    · intro c hc
      obtain ⟨rest, rfl⟩ := List.head?_eq_some_iff.mp hc
      by_contra hblank
      obtain ⟨-, ⟨d, hd, -⟩, -⟩ := h [] c rest rfl (by simpa using hblank)
      simp at hd
    · intro c hc
      obtain ⟨rest, rfl⟩ := List.getLast?_eq_some_iff.mp hc
      by_contra hblank
      obtain ⟨-, -, d, hd, -⟩ := h rest c [] rfl (by simpa using hblank)
      simp at hd

/-- The compact form of a text is the one text that has the same visible characters in the same
order, in which each blank is a space between two of them that are no edges, and which has a space
between two neighbours that are no edges exactly if the text has blanks there. So compacting a
second time changes nothing. -/
theorem compact_normalForm :
    (∀ s t : List Char, NormalForm s t ↔ t = compact s) ∧
      ∀ s : List Char, compact (compact s) = compact s := by
  have hmark : isBlank ';' = false := by decide
  have hedge : isEdge ';' = true := by decide
  refine ⟨fun s t => ⟨fun h => ?_, ?_⟩, compact_compact⟩
  · have hgaps := (sameGaps_edge_cons_iff hedge).mpr h.sameGaps
    rw [compact_eq_squeeze]
    exact eq_squeeze_of_sameGaps hmark (tight_iff_separating.mpr h.separating) h.visible_eq hgaps
  · rintro rfl
    have hgaps := (sameGaps_edge_cons_iff hedge).mp (sameGaps_squeeze s hmark)
    refine ⟨?_, tight_iff_separating.mp (tight_compact s), ?_⟩
    · rw [compact_eq_squeeze, visible_squeeze]
    · rw [compact_eq_squeeze]
      exact hgaps

end Blueprint.Layout
