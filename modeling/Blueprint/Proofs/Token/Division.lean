import Blueprint.Proofs.Token.LongestMatch
import Blueprint.Proofs.Token.QuoteRuns

/-!
# Dividing a source into tokens

A division of a source is a list of byte ranges, each with the kind of token that stands there. It
leaves out no byte, each range holds a text of its kind, gaps and words are as long as can be, and runs
of quotes are divided into pairs from the left. Every source has one division and no other, and it is
what a scanner takes that always goes for the longest match.
-/

namespace Blueprint

namespace Text

theorem eq_nil_of_byteSize {s : List Char} (h : byteSize s = 0) : s = [] := by
  by_contra hne
  exact (byteSize_pos hne).ne' h

/-- Of two beginnings of a text the one with fewer bytes is a beginning of the other. -/
theorem prefix_of_byteSize_le {s l r : List Char} (hl : l <+: s) (hr : r <+: s)
    (h : byteSize l ≤ byteSize r) : l <+: r := by
  rcases List.prefix_or_prefix_of_prefix hl hr with hprefix | ⟨more, rfl⟩
  · exact hprefix
  · rw [byteSize_append] at h
    obtain rfl := eq_nil_of_byteSize (s := more) (by omega)
    rw [List.append_nil]

theorem eq_of_byteSize_eq {s l r : List Char} (hl : l <+: s) (hr : r <+: s)
    (h : byteSize l = byteSize r) : l = r := by
  have hle := prefix_of_byteSize_le hl hr h.le
  have hge := prefix_of_byteSize_le hr hl h.ge
  exact hle.eq_of_length (hle.length_le.antisymm hge.length_le)

end Text

/-- What is sliced from a source at the front of a part of it is the front of that part. -/
theorem exists_of_slice {source text : String} {before rest : List Char} {stop : Nat}
    (hsource : source.toList = before ++ rest)
    (h : slice source (Text.byteSize before) stop = .ok text) :
    ∃ after, rest = text.toList ++ after ∧
      stop = Text.byteSize before + Text.byteSize text.toList := by
  have hvalid : Text.byteSize before ≤ stop ∧ String.Pos.Raw.IsValid source ⟨stop⟩ := by
    unfold slice at h
    split at h
    next hslice => exact ⟨hslice.1, String.Pos.Raw.isValid_eq_true_iff.mp hslice.2.2⟩
    next => cases h
  obtain ⟨hle, hstop⟩ := hvalid
  obtain ⟨front, back, hparts, hfront⟩ := String.Pos.Raw.isValid_iff_exists_append.mp hstop
  have hsize : stop = Text.byteSize front.toList := by
    rw [← utf8ByteSize_eq_byteSize]
    exact congrArg String.Pos.Raw.byteIdx hfront
  have hlists : source.toList = front.toList ++ back.toList := by
    rw [hparts, String.toList_append]
  obtain ⟨middle, hmiddle⟩ := Text.prefix_of_byteSize_le (l := before) (r := front.toList)
    ⟨rest, hsource.symm⟩ ⟨back.toList, hlists.symm⟩ (hsize ▸ hle)
  rw [← hmiddle] at hsize hlists
  rw [Text.byteSize_append] at hsize
  rw [hsize, slice_eq_ok back.toList hlists] at h
  obtain rfl : String.ofList middle = text := Except.ok.inj h
  refine ⟨back.toList, ?_, by rw [hsize, String.toList_ofList]⟩
  rw [hsource, List.append_assoc] at hlists
  rw [String.toList_ofList]
  exact List.append_cancel_left hlists

namespace Token

/-- The ranges leave out no byte of the source and each holds a text of its kind. No two gaps and no
two words are side by side, and a run of quotes has one range for each pair and then one for the quote
that may be left. -/
structure Division (source : String) (rs : List TokenRange) : Prop where
  filled : Stretch.Tiles 0 rs source.utf8ByteSize
  fits : ∀ r ∈ rs, ∃ text, slice source r.start r.stop = .ok text ∧ r.kind.Matches text.toList
  separate : rs.IsChain fun r next => Separate r.kind next.kind
  quotes : ∀ before n after, QuoteRun source.toList before n after →
    ∃ front marks back, rs = front ++ marks ++ back ∧
      Stretch.Tiles 0 front (Text.byteSize before) ∧
      Stretch.Tiles (Text.byteSize before) marks (Text.byteSize before + n) ∧
      Stretch.Tiles (Text.byteSize before + n) back source.utf8ByteSize ∧
      marks.map (·.kind) = quoteKinds n

section Ranges

variable {source : String} {ts : List Token} {start : Nat}

@[simp] theorem map_kind_ranges (start : Nat) (ts : List Token) :
    (ranges start ts).map (·.kind) = ts.map kind := by
  induction ts generalizing start with
  | nil => rfl
  | cons t ts ih => simp [ih]

theorem exists_of_ranges_eq_append {l r : List TokenRange} (h : ranges start ts = l ++ r) :
    ∃ front back, ts = front ++ back ∧ l = ranges start front ∧
      r = ranges (start + Text.byteSize (textOf front)) back := by
  have hparts : ts = ts.take l.length ++ ts.drop l.length := (List.take_append_drop _ _).symm
  have hlength : (ranges start (ts.take l.length)).length = l.length := by
    have htotal := congrArg List.length h
    rw [length_ranges, List.length_append] at htotal
    rw [length_ranges, List.length_take, htotal]
    omega
  rw [hparts, ranges_append] at h
  obtain ⟨hl, hr⟩ := List.append_inj h hlength
  exact ⟨_, _, hparts, hl.symm, hr.symm⟩

theorem stop_eq_of_tiles {stop : Nat} (h : Stretch.Tiles start (ranges start ts) stop) :
    stop = start + Text.byteSize (textOf ts) := by
  induction ts generalizing start with
  | nil => exact h.symm
  | cons t ts ih =>
    obtain ⟨-, -, hrest⟩ := h
    rw [ih hrest, textOf_cons, Text.byteSize_append, byteSize, Nat.add_assoc]

theorem mapM_slice_ranges (before after : List Char)
    (h : source.toList = before ++ textOf ts ++ after) :
    (ranges (Text.byteSize before) ts).mapM (fun r => slice source r.start r.stop) =
      .ok (ts.map fun t => String.ofList t.text) := by
  induction ts generalizing before with
  | nil => rfl
  | cons t ts ih =>
    have hslice : slice source (Text.byteSize before) (Text.byteSize before + t.byteSize) =
        .ok (String.ofList t.text) :=
      slice_eq_ok (textOf ts ++ after) (by simpa using h)
    have hrest := ih (before ++ t.text) (by simpa using h)
    rw [Text.byteSize_append] at hrest
    rw [ranges_cons, List.mapM_cons, hslice]
    exact bind_eq_ok_iff.mpr ⟨_, rfl, bind_eq_ok_iff.mpr ⟨_, hrest, rfl⟩⟩

theorem exists_of_mem_ranges {before after : List Char}
    (h : source.toList = before ++ textOf ts ++ after) {r : TokenRange}
    (hr : r ∈ ranges (Text.byteSize before) ts) :
    ∃ t ∈ ts, slice source r.start r.stop = .ok (String.ofList t.text) ∧ r.kind = t.kind := by
  induction ts generalizing before with
  | nil => cases hr
  | cons t ts ih =>
    rw [ranges_cons, List.mem_cons] at hr
    rcases hr with rfl | hr
    · exact ⟨t, List.mem_cons_self, slice_eq_ok (textOf ts ++ after) (by simpa using h), rfl⟩
    · have hnext : source.toList = before ++ t.text ++ textOf ts ++ after := by simpa using h
      have hsize : Text.byteSize (before ++ t.text) = Text.byteSize before + t.byteSize :=
        Text.byteSize_append before t.text
      obtain ⟨u, hu, hslice⟩ := ih hnext (hsize ▸ hr)
      exact ⟨u, List.mem_cons_of_mem t hu, hslice⟩

/-- Ranges that fill a part of a source with texts of their kinds are those of tokens with this text. -/
theorem exists_tokens {rs : List TokenRange} (before : List Char) {rest : List Char}
    (hsource : source.toList = before ++ rest)
    (hfilled : Stretch.Tiles (Text.byteSize before) rs source.utf8ByteSize)
    (hfits : ∀ r ∈ rs, ∃ text, slice source r.start r.stop = .ok text ∧
      r.kind.Matches text.toList) :
    ∃ ts, (∀ t ∈ ts, t.Valid) ∧ textOf ts = rest ∧ rs = ranges (Text.byteSize before) ts := by
  induction rs generalizing before rest with
  | nil =>
    have hsize : Text.byteSize before = Text.byteSize (before ++ rest) := by
      rw [← hsource, ← utf8ByteSize_eq_byteSize]
      exact hfilled
    rw [Text.byteSize_append] at hsize
    obtain rfl := Text.eq_nil_of_byteSize (s := rest) (by omega)
    exact ⟨[], by simp, rfl, rfl⟩
  | cons r rs ih =>
    obtain ⟨kind, start, stop⟩ := r
    obtain ⟨rfl, -, hrest⟩ := hfilled
    obtain ⟨text, hslice, hmatch⟩ := hfits _ List.mem_cons_self
    obtain ⟨after, rfl, rfl⟩ := exists_of_slice hsource hslice
    obtain ⟨t, ht, rfl, htext⟩ := exists_of_matches hmatch
    have hnext : source.toList = before ++ t.text ++ after := by
      rw [hsource, ← htext, List.append_assoc]
    have hsize : Text.byteSize (before ++ t.text) =
        Text.byteSize before + Text.byteSize text.toList := by
      rw [Text.byteSize_append, htext]
    obtain ⟨ts, hvalid, rfl, hranges⟩ :=
      ih (before ++ t.text) hnext (hsize ▸ hrest) fun r hr => hfits r (List.mem_cons_of_mem _ hr)
    refine ⟨t :: ts, ?_, by rw [textOf_cons, htext], ?_⟩
    · simpa using ⟨ht, hvalid⟩
    · rw [ranges_cons, byteSize, htext, ← hsize, ← hranges]

end Ranges

section Division

variable {source : String}

theorem byteSize_quotes (n : Nat) : Text.byteSize (List.replicate n '\'') = n := by
  induction n with
  | zero => rfl
  | succ n ih =>
    have hquote : '\''.utf8Size = 1 := rfl
    rw [List.replicate_succ, Text.byteSize_cons, ih, hquote, Nat.add_comm]

theorem tiles_ranges_lex (start : Nat) (s : List Char) :
    Stretch.Tiles start (ranges start (lex s)) (start + Text.byteSize s) := by
  have htiles := Segment.tiles_ranges (lexed_lex s).valid start
  rwa [textOf_lex] at htiles

theorem division_lex (source : String) : Division source (ranges 0 (lex source.toList)) where
  filled := by
    have htiles := tiles_ranges_lex 0 source.toList
    rwa [← utf8ByteSize_eq_byteSize, Nat.zero_add] at htiles
  fits r hr := by
    have hsource : source.toList = [] ++ textOf (lex source.toList) ++ [] := by simp [textOf_lex]
    obtain ⟨t, ht, hslice, hkind⟩ := exists_of_mem_ranges hsource hr
    refine ⟨_, hslice, ?_⟩
    rw [hkind, String.toList_ofList]
    exact matches_text ((lexed_lex source.toList).valid t ht)
  separate := by
    have hseparate := (lexed_lex source.toList).apart.imp fun _ _ h => (apart_iff.mp h).1
    rwa [← List.isChain_map kind, ← map_kind_ranges 0, List.isChain_map] at hseparate
  quotes before n after h := by
    have hfront := tiles_ranges_lex 0 before
    have hmarks := tiles_ranges_lex (Text.byteSize before) (List.replicate n '\'')
    have hback := tiles_ranges_lex (Text.byteSize before + n) after
    have htotal : source.utf8ByteSize = Text.byteSize before + n + Text.byteSize after := by
      rw [utf8ByteSize_eq_byteSize, h.source_eq, Text.byteSize_append, Text.byteSize_append,
        byteSize_quotes]
    rw [Nat.zero_add] at hfront
    rw [byteSize_quotes] at hmarks
    rw [← htotal] at hback
    refine ⟨_, _, _, ?_, hfront, hmarks, hback, ?_⟩
    · rw [h.lex_eq, ranges_append, ranges_append, textOf_append, textOf_lex, textOf_lex,
        Text.byteSize_append, byteSize_quotes, Nat.zero_add, Nat.zero_add]
    · rw [map_kind_ranges, map_kind_lex_quotes]

theorem Division.paired {ts : List Token} (h : Division source (ranges 0 ts))
    (htext : textOf ts = source.toList) : Paired ts := by
  intro before n after hrun
  obtain ⟨front, marks, back, hrs, hfront, -, -, hkinds⟩ := h.quotes before n after (htext ▸ hrun)
  obtain ⟨first, last, rfl, hfirst, -⟩ := exists_of_ranges_eq_append hrs
  obtain ⟨tsFront, tsMarks, rfl, rfl, rfl⟩ := exists_of_ranges_eq_append hfirst.symm
  have hsize := stop_eq_of_tiles hfront
  rw [Nat.zero_add] at hsize
  refine ⟨tsFront, tsMarks, last, rfl, ?_, by rwa [map_kind_ranges] at hkinds⟩
  have hbefore : before <+: source.toList :=
    ⟨List.replicate n '\'' ++ after, by rw [← htext, hrun.source_eq, List.append_assoc]⟩
  have htokens : textOf tsFront <+: source.toList :=
    ⟨textOf tsMarks ++ textOf last, by rw [← htext]; simp⟩
  exact Text.eq_of_byteSize_eq htokens hbefore hsize.symm

theorem Division.eq_ranges {rs : List TokenRange} (h : Division source rs) :
    rs = ranges 0 (lex source.toList) := by
  have hsource : source.toList = [] ++ source.toList := rfl
  obtain ⟨ts, hvalid, htext, hranges⟩ := exists_tokens [] hsource h.filled h.fits
  obtain rfl : rs = ranges 0 ts := hranges
  have hseparate : ts.IsChain fun t u => Separate t.kind u.kind := by
    rw [← List.isChain_map kind, ← map_kind_ranges 0, List.isChain_map]
    exact h.separate
  have hlexed : Lexed ts := (h.paired htext).lexed hvalid hseparate
  rw [← htext, lex_textOf hlexed]

/-- A scanner that takes longest matches passes through every source, and it skips nothing. The ranges
it takes are those of the tokens, their slices joined are the source, and no other list of ranges
divides the source in this way. -/
theorem lossless_unambiguous (source : String) :
    (∃ steps, Scan source.toList steps) ∧
      ∀ steps, Scan source.toList steps →
        (∀ step ∈ steps, step.kind? ≠ none) ∧
        rangesTaken 0 steps = ranges 0 (lex source.toList) ∧
        kindsTaken steps = (rangesTaken 0 steps).map (·.kind) ∧
        (∃ texts, (rangesTaken 0 steps).mapM (fun r => slice source r.start r.stop) = .ok texts ∧
          String.join texts = source) ∧
        ∀ rs, Division source rs ↔ rs = rangesTaken 0 steps := by
  refine ⟨⟨_, scan_lex source.toList⟩, fun steps hsteps => ?_⟩
  obtain rfl := hsteps.steps_eq
  have hsource : source.toList = [] ++ textOf (lex source.toList) ++ [] := by simp [textOf_lex]
  have hslices := mapM_slice_ranges [] [] hsource
  have hjoin : String.join ((lex source.toList).map fun t => String.ofList t.text) = source := by
    rw [← String.toList_inj, String.toList_join, List.flatMap_map]
    simpa [textOf] using textOf_lex source.toList
  rw [rangesTaken_ofToken, kindsTaken_ofToken, map_kind_ranges]
  refine ⟨?_, rfl, rfl, ⟨_, hslices, hjoin⟩, fun rs => ⟨Division.eq_ranges, ?_⟩⟩
  · simp [Step.ofToken]
  · rintro rfl
    exact division_lex source

/-- A letter of two bytes, a blank of three and three quotes in a row. -/
theorem lossless_unambiguous_three_quotes :
    ∃ steps, Scan "Ä\u2003,'''b".toList steps ∧
      rangesTaken 0 steps =
        [⟨.word, 0, 2⟩, ⟨.gap, 2, 5⟩, ⟨.comma, 5, 6⟩, ⟨.columnMark, 6, 8⟩, ⟨.fieldMark, 8, 9⟩,
          ⟨.word, 9, 10⟩] ∧
      ∀ rs, Division "Ä\u2003,'''b" rs → rs = rangesTaken 0 steps := by
  obtain ⟨⟨steps, hsteps⟩, hall⟩ := lossless_unambiguous "Ä\u2003,'''b"
  obtain ⟨-, hranges, -, -, hunique⟩ := hall steps hsteps
  exact ⟨steps, hsteps, hranges.trans (by decide +kernel), fun rs => (hunique rs).mp⟩

end Division

end Token

end Blueprint
