import Blueprint.Proofs.Segment.Cutting

/-!
# Where segments stand in their source

A segment keeps the byte at which it starts and no copy of its text. Whatever is cut from a source,
and however often, the tokens that a segment is left with spell what stands in the source from that
byte on.
-/

namespace Blueprint.Segment

/-- The text of the segment stands in the source from the byte where the segment starts. -/
def Within (source : List Char) (s : Segment) : Prop :=
  ∃ before after, source = before ++ s.text ++ after ∧ s.start = Text.byteSize before

/-- What can be had of a source by cutting at marks and taking off tags, any number of times. -/
inductive Reached (source : List Char) : Segment → Prop
  | whole : Reached source (ofText source)
  | cut {s part : Segment} {kind : Token.Kind} (h : Reached source s) (hp : part ∈ s.cut kind) :
      Reached source part
  | withoutTag {s : Segment} (h : Reached source s) : Reached source s.withoutTag

variable {source : List Char} {kind : Token.Kind}

theorem Reached.lexed {s : Segment} (h : Reached source s) : s.Lexed := by
  induction h with
  | whole => exact lexed_ofText source
  | cut _ hp ih => exact ih.of_mem_cut hp
  | withoutTag _ ih => exact ih.withoutTag

theorem first_cutTokens (kind : Token.Kind) (start : Nat) (ts : List Token) :
    (cutTokens kind start ts).1.start = start ∧
      (cutTokens kind start ts).1.text <+: Token.textOf ts := by
  induction ts generalizing start with
  | nil => exact ⟨rfl, List.prefix_rfl⟩
  | cons t rest ih =>
    by_cases ht : t.kind = kind
    · simp [cutTokens, ht, text]
    · obtain ⟨-, tail, htail⟩ := ih (start + t.byteSize)
      refine ⟨by simp [cutTokens, ht], tail, ?_⟩
      simp [cutTokens, ht, text, ← htail]

theorem within_cutTokens {before after : List Char} {ts : List Token}
    (h : source = before ++ Token.textOf ts ++ after) :
    ∀ part ∈ (cutTokens kind (Text.byteSize before) ts).1 ::
      (cutTokens kind (Text.byteSize before) ts).2, Within source part := by
  induction ts generalizing before with
  | nil =>
    intro part hpart
    obtain rfl : part = ⟨Text.byteSize before, []⟩ := by simpa [cutTokens] using hpart
    exact ⟨before, after, h, rfl⟩
  | cons t rest ih =>
    have hsource : source = (before ++ t.text) ++ Token.textOf rest ++ after := by simpa using h
    have hrest := ih hsource
    have hstart : Text.byteSize (before ++ t.text) = Text.byteSize before + t.byteSize :=
      Text.byteSize_append before t.text
    rw [hstart] at hrest
    intro part hpart
    by_cases ht : t.kind = kind
    · have hmem : part = ⟨Text.byteSize before, []⟩ ∨
          part ∈ (cutTokens kind (Text.byteSize before + t.byteSize) rest).1 ::
            (cutTokens kind (Text.byteSize before + t.byteSize) rest).2 := by
        simpa [cutTokens, ht] using hpart
      rcases hmem with rfl | hmem
      · exact ⟨before, Token.textOf (t :: rest) ++ after, by simpa [text] using h, rfl⟩
      · exact hrest part hmem
    · obtain ⟨-, tail, htail⟩ :=
        first_cutTokens kind (Text.byteSize before + t.byteSize) rest
      have hmem : part = ⟨Text.byteSize before,
            t :: (cutTokens kind (Text.byteSize before + t.byteSize) rest).1.tokens⟩ ∨
          part ∈ (cutTokens kind (Text.byteSize before + t.byteSize) rest).2 := by
        simpa [cutTokens, ht] using hpart
      rcases hmem with rfl | hmem
      · refine ⟨before, tail ++ after, ?_, rfl⟩
        rw [hsource, ← htail]
        simp [text]
      · exact hrest part (List.mem_cons_of_mem _ hmem)

theorem Within.of_mem_cut {s part : Segment} (h : Within source s) (hp : part ∈ s.cut kind) :
    Within source part := by
  obtain ⟨before, after, hsource, hstart⟩ := h
  rw [cut, hstart] at hp
  exact within_cutTokens hsource part hp

theorem Within.withoutTag {s : Segment} (h : Within source s) : Within source s.withoutTag := by
  obtain ⟨before, after, hsource, hstart⟩ := h
  obtain ⟨start, tokens⟩ := s
  subst hstart
  unfold Segment.withoutTag
  split
  next letters rest htokens =>
    subst htokens
    have hquote : '\''.utf8Size = 1 := rfl
    refine ⟨before ++ letters ++ ['\''], after, ?_, ?_⟩
    · simpa [text, Token.text] using hsource
    · simp [hquote, Nat.add_assoc]
  next letters htokens =>
    subst htokens
    refine ⟨before ++ letters, after, ?_, ?_⟩
    · simpa [text, Token.text] using hsource
    · simp
  next => exact ⟨before, after, hsource, rfl⟩

theorem Reached.within {s : Segment} (h : Reached source s) : Within source s := by
  induction h with
  | whole => exact ⟨[], [], by simp, rfl⟩
  | cut _ hp ih => exact ih.of_mem_cut hp
  | withoutTag _ ih => exact ih.withoutTag

end Blueprint.Segment
