import Blueprint.Description.Basic
import Blueprint.Proofs.Layout.Compact
import Blueprint.Proofs.Segment.Cutting

/-!
# Descriptions, section by section

A description is compacted as a whole and then cut, but what a section means can be told from the
text between two `;` alone. A section has a tag exactly if its text starts with the letters of the
tag and a quote, blanks aside, and then its columns are the parts of the rest between pairs of
quotes.
-/

namespace Blueprint

namespace Section

variable {table : DefaultTable} {tag : Tag}

def ofTexts (table : DefaultTable) (tag : Tag) (columns : List (List Char)) : Content :=
  ofColumns table tag (columns.map Segment.ofText)

/-- The columns of a section in which this text follows the tag and its quote. If it starts with a
quote, the two make a pair and the first column is empty. -/
def columnsAfterTag (rest : List Char) : List (List Char) :=
  (Text.columns ('\'' :: rest)).modifyHead List.tail

theorem map_getElem?_congr {β : Type} {f : Segment → β} {cs cs' : List Segment}
    (hf : ∀ s s' : Segment, s.tokens = s'.tokens → f s = f s')
    (h : cs.map Segment.tokens = cs'.map Segment.tokens) (i : Nat) :
    cs[i]?.map f = cs'[i]?.map f := by
  have hi : cs[i]?.map Segment.tokens = cs'[i]?.map Segment.tokens := by
    rw [← List.getElem?_map, ← List.getElem?_map, h]
  cases hc : cs[i]? <;> cases hc' : cs'[i]? <;> simp_all
  exact hf _ _ hi

theorem ofColumns_congr {cs cs' : List Segment}
    (h : cs.map Segment.tokens = cs'.map Segment.tokens) :
    ofColumns table tag cs = ofColumns table tag cs' := by
  have hitems : ∀ i, itemsAt cs i = itemsAt cs' i := fun i => by
    rw [itemsAt, itemsAt, map_getElem?_congr (fun _ _ => Segment.items_congr) h]
  have hgroups : ∀ i, groupsAt cs i = groupsAt cs' i := fun i => by
    rw [groupsAt, groupsAt, map_getElem?_congr (fun _ _ => Segment.groups_congr) h]
  have hname := map_getElem?_congr (fun _ _ => Segment.trimmed_congr) h 0
  simp only [ofColumns, hitems, hgroups, hname]

def itemsOf (columns : List (List Char)) (i : Nat) : List String :=
  (columns[i]?.map Text.items).getD []

def groupsOf (columns : List (List Char)) (i : Nat) : List (List String) :=
  (columns[i]?.map Text.groups).getD []

theorem itemsAt_map_ofText (columns : List (List Char)) (i : Nat) :
    itemsAt (columns.map Segment.ofText) i = itemsOf columns i := by
  cases h : columns[i]? <;> simp [itemsAt, itemsOf, h, (Segment.lexed_ofText _).items_eq]

theorem groupsAt_map_ofText (columns : List (List Char)) (i : Nat) :
    groupsAt (columns.map Segment.ofText) i = groupsOf columns i := by
  cases h : columns[i]? <;> simp [groupsAt, groupsOf, h, (Segment.lexed_ofText _).groups_eq]

theorem ofTexts_eq (columns : List (List Char)) :
    ofTexts table tag columns =
      let names := itemsOf columns 0
      let second := itemsOf columns 1
      let third := itemsOf columns 2
      match tag with
      | .header => {}
      | .legacyVars => legacyVars table names second
      | .signals => signals names (groupsOf columns 1)
      | .functions => functions names second (groupsOf columns 2)
      | .constants => constants table names second third
      | .enumeration => enumeration
          ((columns[0]?.map fun c => String.ofList (Text.trim c)).getD "") second
      | .flags =>
        { members := { flags := properties table "bool" names second third }
          omissions := tableOmissions tag names [second.length, third.length] }
      | .currentProps =>
        { members := { currentProps := properties table "var" names second third }
          omissions := tableOmissions tag names [second.length, third.length] }
      | .uniqueProps =>
        { members := { uniqueProps := properties table "var" names second third }
          omissions := tableOmissions tag names [second.length, third.length] }
      | .interfaceProps => interfaceProps names second third
      | .components => components names second := by
  have hname : (columns.map Segment.ofText)[0]?.map Segment.trimmed =
      columns[0]?.map fun c => String.ofList (Text.trim c) := by
    cases h : columns[0]? <;> simp [h, Segment.trimmed]
  cases tag <;> simp only [ofTexts, ofColumns, itemsAt_map_ofText, groupsAt_map_ofText, hname]

theorem lex_label {w : List Char} (hw : ∀ c ∈ w, Token.isLetter c = true) (hne : w ≠ [])
    (rest : List Char) :
    Token.lex (w ++ '\'' :: rest) = .word w :: Token.lex ('\'' :: rest) := by
  refine Token.lex_letters hne hw fun u hu => ?_
  obtain ⟨mark, later, hlex, hmark⟩ := Token.lex_quote rest
  obtain rfl : mark = u := by simpa [hlex] using hu
  cases mark <;> simp_all [Token.isQuote, Token.kind]

theorem pieces_lex_quote (rest : List Char) :
    ∃ first others,
      Text.pieces (·.kind == .columnMark) (Token.lex ('\'' :: rest)) = first :: others ∧
        (first = [] ∨ ∃ tail, first = .fieldMark :: tail) := by
  obtain ⟨mark, later, hlex, hmark⟩ := Token.lex_quote rest
  cases mark with
  | columnMark => exact ⟨[], _, by rw [hlex, Text.pieces_cons_of_pos rfl], .inl rfl⟩
  | fieldMark =>
    cases hl : Text.pieces (·.kind == .columnMark) later with
    | nil => exact absurd hl (Text.pieces_ne_nil _ later)
    | cons next tail =>
      exact ⟨.fieldMark :: next, tail, by rw [hlex, Text.pieces_cons_of_neg rfl, hl]; rfl,
        .inr ⟨next, rfl⟩⟩
  | _ => simp [Token.isQuote] at hmark

theorem map_tokens_withoutTag {w : List Char} (hw : ∀ c ∈ w, Token.isLetter c = true)
    (hne : w ≠ []) (rest : List Char) :
    ((Segment.ofText (w ++ '\'' :: rest)).columns.modifyHead Segment.withoutTag).map
        Segment.tokens =
      ((columnsAfterTag rest).map Segment.ofText).map Segment.tokens := by
  have hlexed := Token.lexed_lex ('\'' :: rest)
  have htexts : (Text.pieces (·.kind == .columnMark) (Token.lex ('\'' :: rest))).map Token.textOf =
      Text.columns ('\'' :: rest) := by
    rw [Token.map_textOf_columns hlexed, Token.textOf_lex]
  have htokens := Segment.map_tokens_cut .columnMark (Segment.ofText (w ++ '\'' :: rest))
  rw [Segment.tokens_ofText, lex_label hw hne] at htokens
  obtain ⟨first, others, hpieces, hfirst⟩ := pieces_lex_quote rest
  rw [Text.pieces_cons_of_neg rfl, hpieces, List.modifyHead_cons] at htokens
  obtain ⟨c, cs, hcolumns, hc, hcs⟩ := List.map_eq_cons_iff.mp htokens
  have hreread : ∀ part ∈ first :: others, Token.lex (Token.textOf part) = part := fun part hp =>
    Token.lex_textOf (hlexed.of_infix (Text.infix_of_mem_pieces (by rw [hpieces]; exact hp)))
  have hothers : others.map (Token.lex ∘ Token.textOf) = others := by
    conv_rhs => rw [← List.map_id others]
    exact List.map_congr_left fun part hp => hreread part (by simp [hp])
  have hhead : c.withoutTag.tokens = Token.lex (Token.textOf first).tail := by
    rcases hfirst with rfl | ⟨tail, rfl⟩
    · simp [Segment.withoutTag, hc, Token.lex]
    · have htail : Token.lex (Token.textOf tail) = tail := by
        have hcolumn : Token.Lexed (.fieldMark :: tail) :=
          hlexed.of_infix (Text.infix_of_mem_pieces (by rw [hpieces]; simp))
        exact Token.lex_textOf hcolumn.tail
      simp [Segment.withoutTag, hc, Token.text, htail]
  rw [Segment.columns, hcolumns, columnsAfterTag, ← htexts, hpieces]
  simp only [List.modifyHead_cons, List.map_cons, List.map_map, hhead, hcs]
  exact congrArg (_ :: ·) hothers.symm

theorem length_columns {w : List Char} (hw : ∀ c ∈ w, Token.isLetter c = true) (hne : w ≠ [])
    (rest : List Char) :
    (Segment.ofText (w ++ '\'' :: rest)).columns.length = (columnsAfterTag rest).length := by
  have h := congrArg List.length (map_tokens_withoutTag hw hne rest)
  simpa using h

/-- What a section means in terms of the text after its tag and quote. -/
def readText (table : DefaultTable) (tag : Tag) (rest : List Char) : Content :=
  if (columnsAfterTag rest).length < tag.columnsNeeded then
    { omissions := [.shortSection tag (columnsAfterTag rest).length tag.columnsNeeded] }
  else ofTexts table tag (columnsAfterTag rest)

theorem read_ofText {w : List Char} (hw : ∀ c ∈ w, Token.isLetter c = true) (hne : w ≠ [])
    (rest : List Char) :
    read table tag (Segment.ofText (w ++ '\'' :: rest)) = readText table tag rest := by
  simp only [read, readText, length_columns hw hne, ofTexts,
    ofColumns_congr (map_tokens_withoutTag hw hne rest)]

theorem read_congr {s s' : Segment} (h : s.tokens = s'.tokens) :
    read table tag s = read table tag s' := by
  have hcolumns : s.columns.map Segment.tokens = s'.columns.map Segment.tokens := by
    rw [Segment.columns, Segment.columns, Segment.map_tokens_cut, Segment.map_tokens_cut, h]
  have hlength : s.columns.length = s'.columns.length := by
    simpa using congrArg List.length hcolumns
  have hbody : (s.columns.modifyHead Segment.withoutTag).map Segment.tokens =
      (s'.columns.modifyHead Segment.withoutTag).map Segment.tokens := by
    cases hc : s.columns <;> cases hc' : s'.columns <;> simp_all [Segment.tokens_withoutTag]
  simp only [read, hlength, ofColumns_congr hbody]

end Section

namespace Description

open Text (isBlank)
open Layout (compact)

/-- The text of a section with this tag: its letters and a quote after them, blanks aside. -/
def Writes (tag : Tag) (t : List Char) : Prop :=
  ∃ l m r, (∀ c ∈ l, isBlank c = true) ∧ (∀ c ∈ m, isBlank c = true) ∧
    t = l ++ tag.code.toList ++ m ++ '\'' :: r

/-- What stands between the first quote of a text and the next. -/
def nameField (t : List Char) : List Char :=
  (Text.pieces (· == '\'') t)[1]?.getD []

theorem isLetter_code (tag : Tag) : ∀ c ∈ tag.code.toList, Token.isLetter c = true := by
  have hall : tag.code.toList.all Token.isLetter = true := by cases tag <;> decide
  exact List.all_eq_true.mp hall

theorem code_ne_nil (tag : Tag) : tag.code.toList ≠ [] := by
  cases tag <;> decide

theorem ofCode?_eq_some_iff {text : String} {tag : Tag} :
    Tag.ofCode? text = some tag ↔ text = tag.code := by
  constructor
  · intro h
    have hcode := @List.find?_some Tag (·.code == text) tag Tag.all h
    exact (beq_iff_eq.mp hcode).symm
  · rintro rfl
    exact Tag.ofCode?_code tag

theorem label?_eq_some_iff {s : Segment} (hs : s.Lexed) {w : String}
    (hw : ∀ c ∈ w.toList, Token.isLetter c = true) (hne : w.toList ≠ []) :
    s.label? = some w ↔ ∃ r, s.text = w.toList ++ '\'' :: r := by
  constructor
  · intro h
    obtain ⟨start, tokens⟩ := s
    match tokens, hs, h with
    | .word letters :: mark :: rest, hs, h =>
      have hmark : mark.isQuote = true := by
        by_contra hq
        simp [Segment.label?, hq] at h
      obtain rfl : String.ofList letters = w := by simpa [Segment.label?, hmark] using h
      cases mark <;> simp_all [Token.isQuote, Segment.text, Token.text]
    | [], _, h => simp [Segment.label?] at h
    | [.word _], _, h => simp [Segment.label?] at h
    | .sectionMark :: _, _, h | .columnMark :: _, _, h | .fieldMark :: _, _, h
    | .bar :: _, _, h | .comma :: _, _, h | .gap _ :: _, _, h => simp [Segment.label?] at h
  · rintro ⟨r, hr⟩
    obtain ⟨mark, later, hlex, hmark⟩ := Token.lex_quote r
    have htokens := hs.lex_text
    rw [hr, Section.lex_label hw hne, hlex] at htokens
    simp [Segment.label?, ← htokens, hmark]

theorem tag?_eq_some_iff {tag : Tag} {t : List Char} :
    (Segment.ofText (compact t)).tag? = some tag ↔ Writes tag t := by
  have hcode : (Segment.ofText (compact t)).tag? = some tag ↔
      (Segment.ofText (compact t)).label? = some tag.code := by
    cases h : (Segment.ofText (compact t)).label? with
    | none => simp [Segment.tag?, h]
    | some w => simp [Segment.tag?, h, ofCode?_eq_some_iff]
  rw [hcode, label?_eq_some_iff (Segment.lexed_ofText _) (isLetter_code tag) (code_ne_nil tag),
    Segment.text_ofText, Layout.compact_eq_label_iff (isLetter_code tag) (code_ne_nil tag)]
  rfl

instance (tag : Tag) (t : List Char) : Decidable (Writes tag t) :=
  decidable_of_iff _ tag?_eq_some_iff

theorem Writes.unique {tag tag' : Tag} {t : List Char} (h : Writes tag t) (h' : Writes tag' t) :
    tag = tag' := by
  rw [← tag?_eq_some_iff] at h h'
  exact Option.some.inj (h.symm.trans h')

theorem Writes.isBlank_eq_false {tag : Tag} {t : List Char} (h : Writes tag t) :
    (Segment.ofText (compact t)).isBlank = false := by
  obtain ⟨r, hr⟩ := (Layout.compact_eq_label_iff (isLetter_code tag) (code_ne_nil tag)).mpr h
  by_contra hb
  have hall := (Segment.lexed_ofText (compact t)).isBlank_iff.mp (by simpa using hb)
  have := hall '\'' (by simp [hr])
  exact absurd this (by decide)

namespace Part

variable {table : DefaultTable}

/-- What the text of one section means for the record. -/
def ofText (table : DefaultTable) (t : List Char) : Part :=
  ofSegment table (Segment.ofText (compact t))

theorem ofSegment_congr {s s' : Segment} (h : s.tokens = s'.tokens) :
    ofSegment table s = ofSegment table s' := by
  have hlabel : s.label? = s'.label? := by simp only [Segment.label?, h]
  simp only [ofSegment, Segment.isBlank, Segment.tag?, Header.ofSegment, Segment.fields, hlabel,
    Segment.trimmed_congr h, Section.read_congr h, h]
  rfl

def headerOf (t : List Char) : Header :=
  Header.ofSegment (Segment.ofText (compact t))

theorem ofText_of_writes_header {t : List Char} (h : Writes .header t) :
    ofText table t = .header (headerOf t) := by
  simp [ofText, ofSegment, h.isBlank_eq_false, tag?_eq_some_iff.mpr h, headerOf]

theorem ofText_of_writes {tag : Tag} {t : List Char} (h : Writes tag t) (htag : tag ≠ .header) :
    ofText table t = .content (Section.read table tag (Segment.ofText (compact t))) := by
  cases tag <;> simp_all [ofText, ofSegment, h.isBlank_eq_false, tag?_eq_some_iff.mpr h]

theorem ofText_of_not_writes {t : List Char} (h : ∀ tag, ¬Writes tag t) :
    (ofText table t).header? = none ∧ (ofText table t).members = {} := by
  have htag : (Segment.ofText (compact t)).tag? = none := by
    cases ht : (Segment.ofText (compact t)).tag? with
    | none => rfl
    | some tag => exact absurd (tag?_eq_some_iff.mp ht) (h tag)
  cases hb : (Segment.ofText (compact t)).isBlank <;>
    simp [ofText, ofSegment, hb, htag, header?, members]

theorem header?_ofText (t : List Char) :
    (ofText table t).header? = if Writes .header t then some (headerOf t) else none := by
  by_cases hh : Writes .header t
  · simp [ofText_of_writes_header hh, hh, header?]
  · by_cases h : ∃ tag, Writes tag t
    · obtain ⟨tag, htag⟩ := h
      have hne : tag ≠ .header := by
        rintro rfl
        exact hh htag
      simp [ofText_of_writes htag hne, hh, header?]
    · simp [(ofText_of_not_writes (not_exists.mp h)).1, hh]

theorem name_headerOf (t : List Char) :
    (headerOf t).name = String.ofList (compact (nameField t)) := by
  have hfields : (Segment.ofText (compact t)).fields =
      (Text.pieces (· == '\'') t).map compact := by
    rw [(Segment.lexed_ofText _).fields_eq, Segment.text_ofText,
      Layout.pieces_compact (by decide)]
  have htrim : Header.trimmedField ∘ compact = String.ofList ∘ compact :=
    funext fun s => congrArg String.ofList (Layout.trim_compact s)
  cases h : (Text.pieces (· == '\'') t)[1]? with
  | none => simp [headerOf, Header.ofSegment, hfields, nameField, h]
  | some field =>
    simp [headerOf, Header.ofSegment, hfields, nameField, h, Header.trimmedField,
      Layout.trim_compact]

theorem name_headerOf_eq_empty_iff {t : List Char} :
    (headerOf t).name = "" ↔ ∀ c ∈ nameField t, isBlank c = true := by
  rw [name_headerOf, ← Layout.compact_eq_nil_iff]
  constructor
  · intro h
    simpa using congrArg String.toList h
  · intro h
    simp [h]

end Part

/-- A description is read section by section. -/
theorem parts_eq_map (table : DefaultTable) (source : List Char) :
    parts table source = (Text.pieces (· == ';') source).map (Part.ofText table) := by
  have hlexed := Segment.lexed_ofText (compact source)
  calc parts table source
      = (Segment.sections (compact source)).map
          (fun s => Part.ofSegment table (Segment.ofText s.text)) := by
        refine List.map_congr_left fun s hs => Part.ofSegment_congr ?_
        rw [Segment.tokens_ofText, (hlexed.of_mem_cut hs).lex_text]
    _ = ((Segment.sections (compact source)).map Segment.text).map
          (fun t => Part.ofSegment table (Segment.ofText t)) := by
        rw [List.map_map]
        rfl
    _ = (Text.pieces (· == ';') source).map (Part.ofText table) := by
        rw [Segment.map_text_sections, Layout.pieces_compact (by decide), List.map_map]
        rfl

theorem zipIdx_map_ofText (table : DefaultTable) (ts : List (List Char)) :
    (ts.map (Part.ofText table)).zipIdx = ts.zipIdx.map fun ti => (Part.ofText table ti.1, ti.2) := by
  rw [List.zipIdx_map]
  rfl

end Description

end Blueprint
