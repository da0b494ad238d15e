import Blueprint.Proofs.Description.Parts
import Blueprint.Proofs.Segment.Ranges

/-!
# Cutting and splitting

Segments are cut at tokens, and at each level the outcome is that of splitting the plain text: at a
mark wherever it stands, and at pairs of quotes as they are found from left to right. A tag is taken
off together with the quote behind it, unless that quote is the first of a pair and so belongs to the
end of the column.
-/

namespace Blueprint.Segment

/-- The first column of a segment that starts with a word and a quote. When a second quote follows,
the two end the column. -/
theorem columns_of_label {s : Segment} (hs : s.Lexed) {w rest : List Char}
    (hw : ∀ c ∈ w, Token.isLetter c = true) (hne : w ≠ []) (htext : s.text = w ++ '\'' :: rest) :
    ∃ first others, s.columns = first :: others ∧
      if rest.head? = some '\'' then first.text = w ∧ first.withoutTag.text = []
      else first.text = w ++ '\'' :: first.withoutTag.text := by
  have htokens : s.columns.map tokens =
      Text.pieces (·.kind == .columnMark) (.word w :: Token.lex ('\'' :: rest)) := by
    rw [columns, map_tokens_cut, ← hs.lex_text, htext, Section.lex_label hw hne]
  by_cases hpair : rest.head? = some '\''
  · obtain ⟨tail, rfl⟩ := List.head?_eq_some_iff.mp hpair
    have hlex : Token.lex ('\'' :: '\'' :: tail) = .columnMark :: Token.lex tail := rfl
    rw [hlex, Text.pieces_cons_of_neg rfl, Text.pieces_cons_of_pos rfl, List.modifyHead_cons]
      at htokens
    obtain ⟨first, others, hcolumns, hfirst, -⟩ := List.map_eq_cons_iff.mp htokens
    refine ⟨first, others, hcolumns, ?_⟩
    rw [if_pos hpair]
    simp [text, tokens_withoutTag, hfirst, Token.text]
  · have hlex : Token.lex ('\'' :: rest) = .fieldMark :: Token.lex rest := by
      rw [Token.lex_cons fun _ => hpair]
      rfl
    cases hp : Text.pieces (·.kind == .columnMark) (Token.lex rest) with
    | nil => exact absurd hp (Text.pieces_ne_nil _ _)
    | cons next later =>
      rw [hlex, Text.pieces_cons_of_neg rfl, Text.pieces_cons_of_neg rfl, hp] at htokens
      obtain ⟨first, others, hcolumns, hfirst, -⟩ := List.map_eq_cons_iff.mp htokens
      refine ⟨first, others, hcolumns, ?_⟩
      rw [if_neg hpair]
      simp [text, tokens_withoutTag, hfirst, Token.text]

theorem exists_text_of_tag? {s : Segment} (hs : s.Lexed) {tag : Tag} (h : s.tag? = some tag) :
    ∃ rest, s.text = tag.code.toList ++ '\'' :: rest := by
  obtain ⟨label, hlabel, hcode⟩ := Option.bind_eq_some_iff.mp h
  obtain rfl := Description.ofCode?_eq_some_iff.mp hcode
  exact (Description.label?_eq_some_iff hs (Description.isLetter_code tag)
    (Description.code_ne_nil tag)).mp hlabel

/-- Cutting at tokens is splitting the text. The sections of a source are its parts between `;`. The
columns of a section are the parts of its text between pairs of quotes, its fields those between
quotes, the items of a column the trimmed parts between commas and its groups the parts between bars,
each as its items without the empty ones. The first column of a tagged section is the tag alone when
a pair of quotes follows, and else the tag, a quote and what is left when the tag is taken off. And
the text of every segment that is had in such a way stands in the source where the segment says. -/
theorem cutting_eq_splitting (source : List Char) :
    (sections source).map text = Text.pieces (· == ';') source ∧
      (∀ s ∈ sections source,
        s.columns.map text = Text.columns s.text ∧
        s.fields = Text.pieces (· == '\'') s.text ∧
        (∀ c ∈ s.columns, c.items = Text.items c.text ∧ c.groups = Text.groups c.text) ∧
        ∀ tag, s.tag? = some tag → ∃ first others rest,
          s.columns = first :: others ∧ s.text = tag.code.toList ++ '\'' :: rest ∧
            if rest.head? = some '\'' then
              first.text = tag.code.toList ∧ first.withoutTag.text = []
            else first.text = tag.code.toList ++ '\'' :: first.withoutTag.text) ∧
      ∀ s, Reached source s → Within source s := by
  refine ⟨map_text_sections source, ?_, fun s hs => hs.within⟩
  intro s hmem
  have hs : s.Lexed := (lexed_ofText source).of_mem_cut hmem
  refine ⟨?_, hs.fields_eq, ?_, ?_⟩
  · rw [columns, map_text_cut, Token.map_textOf_columns hs]
    rfl
  · intro c hc
    have hcolumn : c.Lexed := hs.of_mem_cut hc
    exact ⟨hcolumn.items_eq, hcolumn.groups_eq⟩
  · intro tag htag
    obtain ⟨rest, htext⟩ := exists_text_of_tag? hs htag
    obtain ⟨first, others, hcolumns, hfirst⟩ :=
      columns_of_label hs (Description.isLetter_code tag) (Description.code_ne_nil tag) htext
    exact ⟨first, others, rest, hcolumns, htext, hfirst⟩

/-- Of three quotes behind a tag the first two end its column and the third starts the next one. -/
theorem cutting_eq_splitting_three_quotes :
    let source := "en;cn'''a,b''x|y z,,|".toList
    let s : Segment := ⟨3, Token.lex "cn'''a,b''x|y z,,|".toList⟩
    let c : Segment := ⟨13, Token.lex "x|y z,,|".toList⟩
    s ∈ sections source ∧ s.tag? = some .constants ∧ c ∈ s.columns ∧
      s.columns.map text = ["cn".toList, "'a,b".toList, "x|y z,,|".toList] ∧
      c.items = ["x|y z", "", "|"] ∧ c.groups = [["x"], ["y z"], []] ∧
      ∃ first others, s.columns = first :: others ∧ first.withoutTag.text = [] := by
  intro source s c
  have hs : s ∈ sections source := by decide +kernel
  have hc : c ∈ s.columns := by decide +kernel
  have htag : s.tag? = some .constants := by decide +kernel
  obtain ⟨hcolumns, -, hlists, hfirst⟩ := (cutting_eq_splitting source).2.1 s hs
  obtain ⟨hitems, hgroups⟩ := hlists c hc
  obtain ⟨first, others, rest, hcut, htext, hword⟩ := hfirst .constants htag
  have hrest : rest.head? = some '\'' := by
    have hsource : s.text = "cn".toList ++ '\'' :: '\'' :: "'a,b''x|y z,,|".toList := by
      decide +kernel
    rw [hsource] at htext
    have htail : '\'' :: "'a,b''x|y z,,|".toList = rest := by
      simpa [Tag.code] using htext
    simp [← htail]
  rw [if_pos hrest] at hword
  refine ⟨hs, htag, hc, ?_, ?_, ?_, first, others, hcut, hword.2⟩
  · rw [hcolumns]
    decide +kernel
  · rw [hitems]
    decide +kernel
  · rw [hgroups]
    decide +kernel

end Blueprint.Segment
