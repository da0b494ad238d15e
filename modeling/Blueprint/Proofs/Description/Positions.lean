import Blueprint.Proofs.Description.Faults
import Blueprint.Proofs.Layout.Edits

/-!
# Positions of sections

Laying a text out treats each section by itself: both forms of a text are those of its sections, put
together again with the marks between them. So no section is lost or made, and the position that a
fault or a diagnostic names is that of the section in the text as it was written.
-/

namespace Blueprint

namespace Layout

theorem compact_append_section (l r : List Char) :
    compact (l ++ [';'] ++ r) = compact l ++ [';'] ++ compact r := by
  rw [List.append_assoc, List.append_assoc]
  exact compact_append_edge (by decide) l r

theorem spread_append_section (l r : List Char) :
    spread (l ++ [';'] ++ r) = spread l ++ [';', '\n'] ++ spread r := by
  have hmark : padded .sectionMark = [';', '\n'] := rfl
  rw [List.append_assoc, List.singleton_append]
  unfold spread
  rw [Token.lex_append_section, List.flatMap_append, List.flatMap_cons, hmark, List.append_assoc]

/-- A form that goes on behind a section mark as it would at the start is made section by section. -/
theorem eq_intercalate_of_append {form : List Char → List Char} {mark : List Char}
    (h : ∀ l r, form (l ++ [';'] ++ r) = form l ++ mark ++ form r) (s : List Char) :
    form s = mark.intercalate ((Text.pieces (· == ';') s).map form) := by
  have hs := Text.form_intercalate h (Text.pieces_ne_nil (· == ';') s)
  rwa [Text.intercalate_pieces] at hs

theorem map_text_sections_compact (s : List Char) :
    (Segment.sections (compact s)).map Segment.text =
      (Text.pieces (· == ';') s).map compact := by
  rw [Segment.map_text_sections, pieces_compact (by decide)]

theorem map_compact_sections_spread (s : List Char) :
    (Segment.sections (spread s)).map (fun part => compact part.text) =
      (Text.pieces (· == ';') s).map compact := by
  calc (Segment.sections (spread s)).map (fun part => compact part.text)
      = ((Segment.sections (spread s)).map Segment.text).map compact := by
        rw [List.map_map]
        rfl
    _ = Text.pieces (· == ';') (compact (spread s)) := by
        rw [Segment.map_text_sections, pieces_compact (by decide)]
    _ = (Text.pieces (· == ';') s).map compact := by
        rw [compact_spread, pieces_compact (by decide)]

end Layout

/-- The positions that a fault names. -/
def HeaderFault.positions : HeaderFault → List Nat
  | missing => []
  | unnamed index => [index]
  | repeated first index => [first, index]

namespace Description

open Layout (compact spread)

variable {table : DefaultTable} {id s : String}

theorem diagnostics_of_parse {p : Parsed} (h : parse table id s = .ok p) :
    p.diagnostics = (Text.pieces (· == ';') s.toList).zipIdx.flatMap
      fun ti => (Part.ofText table ti.1).omissions.map (⟨ti.2, ·⟩) := by
  obtain ⟨t, index, -, -, rfl⟩ := exists_headerSection_of_parse h
  rw [parts_eq_map, diagnosticsOf, zipIdx_map_ofText, List.flatMap_map]

theorem exists_header_of_positions {fault : HeaderFault} (h : parse table id s = .error fault)
    {i : Nat} (hi : i ∈ fault.positions) :
    ∃ t, (Text.pieces (· == ';') s.toList)[i]? = some t ∧ Writes .header t := by
  have hmem : i ∈ headerPositions s.toList := by
    rw [parse_eq_error_iff_headerFault?] at h
    cases fault with
    | missing => simp [HeaderFault.positions] at hi
    | unnamed index =>
      obtain ⟨t, hsections, -⟩ := headerFault?_eq_unnamed_iff.mp h
      simpa [headerPositions, hsections, HeaderFault.positions] using hi
    | repeated first index =>
      obtain ⟨rest, hpositions⟩ := headerFault?_eq_repeated_iff.mp h
      have hpair : i = first ∨ i = index := by simpa [HeaderFault.positions] using hi
      rw [headerPositions, hpositions]
      rcases hpair with rfl | rfl <;> simp
  obtain ⟨⟨t, position⟩, ht, rfl⟩ := List.mem_map.mp hmem
  have hheader : Writes .header t := by
    simpa using (List.mem_filter.mp ht).2
  exact ⟨t, getElem?_of_mem_headerSections ht, hheader⟩

/-- Both layouts of a text have the sections of the text: those of the compact form are the compact
forms of the sections as they are written, those of the spread form are that when they are compacted,
and each form is the forms of the sections with the marks between them. When the text is read, the
diagnostics with the position of a section are the omissions of that section read by itself, and the
positions of a fault are those of header sections. -/
theorem layout_keeps_positions (s : String) :
    let written := Text.pieces (· == ';') s.toList
    (Segment.sections (compact s.toList)).map Segment.text = written.map compact ∧
      (Segment.sections (spread s.toList)).map (fun part => compact part.text) =
        written.map compact ∧
      compact s.toList = [';'].intercalate (written.map compact) ∧
      spread s.toList = [';', '\n'].intercalate (written.map spread) ∧
      (Segment.sections (compact s.toList)).length = written.length ∧
      (Segment.sections (spread s.toList)).length = written.length ∧
      ∀ (table : DefaultTable) (id : String),
        (∀ p, parse table id s = .ok p → p.diagnostics =
          written.zipIdx.flatMap fun ti => (Part.ofText table ti.1).omissions.map (⟨ti.2, ·⟩)) ∧
        ∀ fault, parse table id s = .error fault →
          ∀ i ∈ fault.positions, ∃ t, written[i]? = some t ∧ Writes .header t := by
  intro written
  have hcompact := Layout.map_text_sections_compact s.toList
  have hspread := Layout.map_compact_sections_spread s.toList
  refine ⟨hcompact, hspread, Layout.eq_intercalate_of_append Layout.compact_append_section s.toList,
    Layout.eq_intercalate_of_append Layout.spread_append_section s.toList, ?_, ?_, ?_⟩
  · simpa using congrArg List.length hcompact
  · simpa using congrArg List.length hspread
  · intro table id
    constructor
    · intro p hp
      exact diagnostics_of_parse hp
    · intro fault hfault i hi
      exact exists_header_of_positions hfault hi

/-- Blank sections are counted, for the diagnostic behind one and for the second of two headers. -/
theorem layout_keeps_positions_blank_section :
    (∃ p, parse .engine "k" "Cl ' A ;\n ; zz ' q" = .ok p ∧
        p.diagnostics = [⟨2, .unknownSection "zz"⟩]) ∧
      parse .engine "k" "Cl ' ; \t; Cl'B" = .error (.repeated 0 2) ∧
        ∃ t, (Text.pieces (· == ';') "Cl ' ; \t; Cl'B".toList)[2]? = some t ∧ Writes .header t := by
  have hrecord : ((parse .engine "k" "Cl ' A ;\n ; zz ' q").toOption.map fun p =>
      p.record.name) = some "A" := by decide +kernel
  have hfault : parse .engine "k" "Cl ' ; \t; Cl'B" = .error (.repeated 0 2) := by
    rw [parse_eq_error_iff_headerFault?]
    decide +kernel
  obtain ⟨p, hp, -⟩ := exists_parse_of_map hrecord
  obtain ⟨-, -, -, -, -, -, hread⟩ := layout_keeps_positions "Cl ' A ;\n ; zz ' q"
  obtain ⟨-, -, -, -, -, -, hread'⟩ := layout_keeps_positions "Cl ' ; \t; Cl'B"
  refine ⟨⟨p, hp, ?_⟩, hfault, (hread' .engine "k").2 _ hfault 2 (by decide)⟩
  rw [(hread .engine "k").1 p hp]
  decide +kernel

end Description

end Blueprint
