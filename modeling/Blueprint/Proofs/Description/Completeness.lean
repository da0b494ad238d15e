import Blueprint.Proofs.Description.Faults
import Blueprint.Proofs.Description.Independence
import Blueprint.Proofs.Section.Places

/-!
# What a parsed record keeps

When parsing reports nothing, each text in the columns that a section's tag reads has its place in
what the section adds to the record. Columns and header fields behind them are given up without a
report, so a record can lack texts of its description although no diagnostic tells of it.
-/

namespace Blueprint

open Layout (compact)

def ClassRecord.header (r : ClassRecord) : Header :=
  ⟨r.name, r.parent, r.interfaces⟩

def ClassRecord.texts (r : ClassRecord) : List String :=
  (r.header.columns :: r.toMembers.rows).flatten.flatten

namespace Description

open Section (Written)

/-- The columns written in a section behind its tag, which in a header are the fields between
quotes. -/
def columnsWritten (tag : Tag) (t : List Char) : List (List Char) :=
  match tag with
  | .header => (Text.pieces (· == '\'') (compact t)).drop 1
  | _ => Section.columnsAfterTag ((compact t).drop (tag.code.toList.length + 1))

theorem columnsWritten_of_ne_header {tag : Tag} (h : tag ≠ .header) (t : List Char) :
    columnsWritten tag t =
      Section.columnsAfterTag ((compact t).drop (tag.code.toList.length + 1)) := by
  cases tag <;> first | rfl | exact absurd rfl h

variable {table : DefaultTable} {tag : Tag} {t : List Char} {column row : Nat} {text : String}

namespace Part

/-- The texts that a part adds to the record, row by row and column by column. -/
def rows : Part → List (List (List String))
  | header h => [h.columns]
  | content c => c.members.rows
  | _ => []

def texts (p : Part) : List String :=
  p.rows.flatten.flatten

theorem ofText_eq_readText (hw : Writes tag t) (htag : tag ≠ .header) :
    ofText table t =
      .content (Section.readText table tag ((compact t).drop (tag.code.toList.length + 1))) := by
  obtain ⟨r, hr⟩ := (Layout.compact_eq_label_iff (isLetter_code tag) (code_ne_nil tag)).mpr hw
  have hdrop : (compact t).drop (tag.code.toList.length + 1) = r := by
    rw [hr, ← List.drop_drop, List.drop_left, List.drop_one, List.tail_cons]
  rw [ofText_of_writes hw htag, hdrop, hr,
    Section.read_ofText (isLetter_code tag) (code_ne_nil tag)]

theorem headerOf_eq (t : List Char) :
    headerOf t =
      { name := ((columnsWritten .header t)[0]?.map Header.trimmedField).getD ""
        parent := ((columnsWritten .header t)[1]?.map Header.trimmedField).filter (· ≠ "")
        interfaces := (Section.itemsOf (columnsWritten .header t) 2).filter (· ≠ "") } := by
  have hinterfaces : ∀ fields : List (List Char),
      (fields[2]?.map Header.interfacesOf).getD [] =
        (Section.itemsOf fields 2).filter (· ≠ "") := by
    intro fields
    cases hfield : fields[2]? with
    | none => simp [Section.itemsOf, hfield]
    | some field =>
      rw [Section.itemsOf, hfield]
      rfl
  rw [headerOf, Header.ofSegment, (Segment.lexed_ofText _).fields_eq, Segment.text_ofText,
    hinterfaces]
  rfl

theorem placed_headerOf (hcolumn : column < 3)
    (hw : Written .header (columnsWritten .header t) column row text) :
    Placed [(headerOf t).columns] column row text := by
  rw [headerOf_eq]
  match column, hcolumn with
  | 0, _ =>
    obtain ⟨rfl, htext⟩ := hw.trim_eq rfl
    have hname : (columnsWritten .header t)[0]?.map Header.trimmedField = some text := htext
    exact ⟨_, rfl, _, rfl, by simp [hname]⟩
  | 1, _ =>
    obtain ⟨rfl, htext⟩ := hw.trim_eq rfl
    have hparent : (columnsWritten .header t)[1]?.map Header.trimmedField = some text := htext
    exact ⟨_, rfl, _, rfl, by simp [hparent, hw.1]⟩
  | 2, _ =>
    obtain ⟨rfl, htext⟩ := hw.mem_items rfl
    exact ⟨_, rfl, _, rfl, by simp [htext, hw.1]⟩

/-- A section without omissions has each text of the columns that its tag reads in its place. -/
theorem placed_ofText (hw : Writes tag t) (hnone : (ofText table t).omissions = [])
    (hcolumn : column < tag.columnsRead)
    (hwritten : Written tag (columnsWritten tag t) column row text) :
    Placed (ofText table t).rows column row text := by
  by_cases htag : tag = .header
  · subst htag
    rw [ofText_of_writes_header hw]
    exact placed_headerOf hcolumn hwritten
  · rw [columnsWritten_of_ne_header htag] at hwritten
    rw [ofText_eq_readText hw htag] at hnone ⊢
    simp only [omissions, rows, Section.readText] at hnone ⊢
    split at hnone
    · simp at hnone
    · rename_i hneeded
      rw [if_neg hneeded]
      exact Section.placed_ofTexts hnone htag hcolumn hwritten

/-- A section is read without regard to what stands behind the columns that its tag reads. -/
theorem ofText_congr_take {t' : List Char} (hw : Writes tag t) (hw' : Writes tag t')
    (h : (columnsWritten tag t').take tag.columnsRead =
      (columnsWritten tag t).take tag.columnsRead) :
    ofText table t' = ofText table t := by
  by_cases htag : tag = .header
  · subst htag
    have hcolumn : ∀ i < 3, (columnsWritten .header t')[i]? = (columnsWritten .header t)[i]? :=
      fun i => Section.getElem?_of_take h
    rw [ofText_of_writes_header hw, ofText_of_writes_header hw', headerOf_eq, headerOf_eq]
    simp only [Section.itemsOf, hcolumn 0 (by omega), hcolumn 1 (by omega), hcolumn 2 (by omega)]
  · rw [columnsWritten_of_ne_header htag, columnsWritten_of_ne_header htag] at h
    rw [ofText_eq_readText hw htag, ofText_eq_readText hw' htag, Section.readText_congr_take h]

end Part

theorem omissions_eq_nil_of_diagnosticsOf {ps : List Part} (h : diagnosticsOf ps = []) :
    ∀ p ∈ ps, p.omissions = [] := by
  rw [diagnosticsOf, List.flatMap_eq_nil_iff] at h
  intro p hp
  obtain ⟨i, hi⟩ := List.mem_iff_getElem?.mp hp
  simpa using h (p, i) (List.mem_zipIdx_iff_getElem?.mpr hi)

theorem membersOf_map_append (table : DefaultTable) (before after : List (List Char)) :
    membersOf ((before ++ after).map (Part.ofText table)) =
      membersOf (before.map (Part.ofText table)) ++ membersOf (after.map (Part.ofText table)) := by
  rw [membersOf_map_ofText, List.map_append, Members.concat_append, membersOf_map_ofText,
    membersOf_map_ofText]

section Parsed

variable {id s : String} {p : Parsed} (h : parse table id s = .ok p)

include h

theorem omissions_eq_nil_of_parse (hnone : p.diagnostics = [])
    (ht : t ∈ Text.pieces (· == ';') s.toList) : (Part.ofText table t).omissions = [] := by
  obtain ⟨head, index, -, -, rfl⟩ := exists_headerSection_of_parse h
  refine omissions_eq_nil_of_diagnosticsOf hnone _ ?_
  rw [parts_eq_map]
  exact List.mem_map_of_mem ht

/-- The members of a section stand in the record between those of the sections around it. -/
theorem toMembers_of_parse {before after : List (List Char)}
    (hsections : Text.pieces (· == ';') s.toList = before ++ t :: after) :
    p.record.toMembers =
      membersOf (before.map (Part.ofText table)) ++ (Part.ofText table t).members ++
        membersOf (after.map (Part.ofText table)) := by
  obtain ⟨head, index, -, -, rfl⟩ := exists_headerSection_of_parse h
  have hmembers := membersOf_map_append table before (t :: after)
  rw [← hsections, ← parts_eq_map] at hmembers
  rw [Members.append_assoc]
  exact hmembers

theorem ofText_eq_header_of_parse (ht : t ∈ Text.pieces (· == ';') s.toList)
    (hw : Writes .header t) : Part.ofText table t = .header p.record.header := by
  obtain ⟨head, index, hheader, -, rfl⟩ := exists_headerSection_of_parse h
  obtain ⟨position, hposition⟩ := List.mem_iff_getElem?.mp ht
  have hmem : (t, position) ∈ headerSections s.toList :=
    List.mem_filter.mpr ⟨List.mem_zipIdx_iff_getElem?.mpr hposition, by simpa using hw⟩
  rw [hheader, List.mem_singleton, Prod.mk.injEq] at hmem
  rw [Part.ofText_of_writes_header hw, hmem.1]
  rfl

end Parsed

/-- When parsing reports nothing, each text that a section has in the columns its tag reads stands
in its place in what the section adds to the record. What stands behind these columns makes no
difference, so a section keeps all its texts only if those behind happen to stand in it as well. -/
theorem placed_of_parse {id s : String} {p : Parsed} (h : parse table id s = .ok p)
    (hnone : p.diagnostics = []) {before after : List (List Char)}
    (hsections : Text.pieces (· == ';') s.toList = before ++ t :: after) (hw : Writes tag t) :
    p.record.toMembers =
        membersOf (before.map (Part.ofText table)) ++ (Part.ofText table t).members ++
          membersOf (after.map (Part.ofText table)) ∧
      (tag = .header → Part.ofText table t = .header p.record.header) ∧
      (∀ column < tag.columnsRead, ∀ row text,
        Written tag (columnsWritten tag t) column row text →
          Placed (Part.ofText table t).rows column row text) ∧
      (∀ t', Writes tag t' →
        (columnsWritten tag t').take tag.columnsRead =
            (columnsWritten tag t).take tag.columnsRead →
          Part.ofText table t' = Part.ofText table t) ∧
      ((∀ column row text, Written tag (columnsWritten tag t) column row text →
          text ∈ (Part.ofText table t).texts) ↔
        ∀ column row text, tag.columnsRead ≤ column →
          Written tag (columnsWritten tag t) column row text →
            text ∈ (Part.ofText table t).texts) := by
  have ht : t ∈ Text.pieces (· == ';') s.toList := by simp [hsections]
  have homissions := omissions_eq_nil_of_parse h hnone ht
  have hplaced : ∀ column < tag.columnsRead, ∀ row text,
      Written tag (columnsWritten tag t) column row text →
        Placed (Part.ofText table t).rows column row text :=
    fun column hcolumn row text => Part.placed_ofText hw homissions hcolumn
  refine ⟨toMembers_of_parse h hsections, ?_, hplaced, fun t' hw' => Part.ofText_congr_take hw hw',
    ?_⟩
  · rintro rfl
    exact ofText_eq_header_of_parse h ht hw
  · constructor
    · intro hall column row text _ hwritten
      exact hall column row text hwritten
    · intro hbehind column row text hwritten
      by_cases hcolumn : column < tag.columnsRead
      · exact (hplaced column hcolumn row text hwritten).mem
      · exact hbehind column row text (Nat.not_lt.mp hcolumn) hwritten

theorem placed_of_parse_functions :
    ∃ p, parse .engine "dsl_1" "Cl'A'B;fn ' f,g '' int, '' a , b  c | d;cv'x''int" = .ok p ∧
      p.diagnostics = [] ∧
      Text.pieces (· == ';') "Cl'A'B;fn ' f,g '' int, '' a , b  c | d;cv'x''int".toList =
        ["Cl'A'B".toList] ++ "fn ' f,g '' int, '' a , b  c | d".toList :: ["cv'x''int".toList] ∧
      Writes .functions "fn ' f,g '' int, '' a , b  c | d".toList ∧
      Placed (Part.ofText .engine "fn ' f,g '' int, '' a , b  c | d".toList).rows 2 0 "b c" := by
  have hread : (parse .engine "dsl_1"
      "Cl'A'B;fn ' f,g '' int, '' a , b  c | d;cv'x''int").toOption.map (·.diagnostics) =
        some [] := by
    decide +kernel
  have hcolumns : columnsWritten .functions "fn ' f,g '' int, '' a , b  c | d".toList =
      ["f,g".toList, "int,".toList, "a , b c | d".toList] := by
    decide +kernel
  have hsections : Text.pieces (· == ';')
        "Cl'A'B;fn ' f,g '' int, '' a , b  c | d;cv'x''int".toList =
      ["Cl'A'B".toList] ++ "fn ' f,g '' int, '' a , b  c | d".toList :: ["cv'x''int".toList] := by
    decide
  have hw : Writes .functions "fn ' f,g '' int, '' a , b  c | d".toList := by decide +kernel
  obtain ⟨p, hp, hnone⟩ := exists_parse_of_map hread
  refine ⟨p, hp, hnone, hsections, hw, ?_⟩
  refine (placed_of_parse hp hnone hsections hw).2.2.1 2 (by decide) 0 "b c" ?_
  rw [hcolumns]
  exact ⟨by decide, _, rfl, ["a", "b c"], by decide, by simp⟩

/-- The third column of a legacy section is given up, and no diagnostic tells of it. -/
theorem not_placed_of_parse :
    ¬∀ (id s : String) (p : Parsed), parse .engine id s = .ok p → p.diagnostics = [] →
      ∀ t ∈ Text.pieces (· == ';') s.toList, ∀ tag, Writes tag t →
        ∀ column row text, Written tag (columnsWritten tag t) column row text →
          text ∈ p.record.texts := by
  intro hall
  have hread : (parse .engine "dsl_1" "Cl'A;cv'x''int''5").toOption.map
      (fun p => (p.diagnostics, p.record.header, p.record.toMembers)) =
        some ([], ⟨"A", none, []⟩, { uniqueProps := [⟨"x", "int", some "0"⟩] }) := by
    decide +kernel
  have hcolumns : columnsWritten .legacyVars "cv'x''int''5".toList = [['x'], "int".toList, ['5']] := by
    decide +kernel
  have hwritten :
      Written .legacyVars (columnsWritten .legacyVars "cv'x''int''5".toList) 2 0 "5" := by
    rw [hcolumns]
    exact ⟨by decide, ['5'], rfl, ["5"], by decide, by simp⟩
  obtain ⟨p, hp, hparsed⟩ := exists_parse_of_map hread
  obtain ⟨hnone, hheader, hmembers⟩ : p.diagnostics = [] ∧ p.record.header = ⟨"A", none, []⟩ ∧
      p.record.toMembers = { uniqueProps := [⟨"x", "int", some "0"⟩] } := by
    simpa using hparsed
  have hkept := hall "dsl_1" _ p hp hnone "cv'x''int''5".toList (by decide) .legacyVars
    (by decide +kernel) 2 0 "5" hwritten
  rw [ClassRecord.texts, hheader, hmembers] at hkept
  exact absurd hkept (by decide)

end Description

end Blueprint
