import Blueprint.Proofs.Canonical.RoundTrip

/-!
# Parsing canonical descriptions

What is written for a record is compact already and has one named header, so parsing it succeeds.
The header gives back the name, the parent and the interfaces, and the members come from the tables
one by one.
-/

namespace Blueprint

open Canonical (Title Entry Phrase Param Plain Cell)

/-- The texts in the record are as a compact description can hold them. -/
structure ClassRecord.Spelled (r : ClassRecord) : Prop where
  name : Title r.name
  parent : ∀ p ∈ r.parent, Title p
  interfaces : ∀ i ∈ r.interfaces, Entry i ∧ '\'' ∉ i.toList
  members : r.toMembers.Spelled Entry Phrase Param

namespace Canonical

open Layout (Tight)

def recordWith (r : ClassRecord) (id : String) (m : Members) : ClassRecord :=
  { toMembers := m
    id
    name := r.name
    parent := r.parent
    interfaces := r.interfaces
    kind := ClassKind.infer r.name }

variable {literals : DefaultTable}

section Tables

theorem tight_code (tag : Tag) : Tight tag.code.toList := by
  have hcompact : Layout.compact tag.code.toList = tag.code.toList := by cases tag <;> decide
  rw [← hcompact]
  exact Layout.tight_compact _

variable {t : Table} (h : ∀ c ∈ t.columns, Column c)

include h

theorem tight_body : Tight t.body := by
  have hquote : Text.isBlank '\'' = false := by decide
  apply intercalate_induction Layout.tight_nil
  · intro l r hl hr
    exact hl.join hquote (Layout.tight_nil.join hquote hr)
  · intro part hp
    obtain ⟨c, hc, rfl⟩ := List.mem_map.mp hp
    exact (h c hc).tight

theorem tight_text : Tight t.text.toList := by
  rw [Table.toList_text]
  exact (tight_code t.tag).join (by decide) (tight_body h)

theorem section_not_mem_text : ';' ∉ t.text.toList := by
  have hbody : ';' ∉ t.body := by
    apply not_mem_intercalate (by decide)
    intro part hp
    obtain ⟨c, hc, rfl⟩ := List.mem_map.mp hp
    exact (h c hc).uncut
  have hcode : ';' ∉ t.tag.code.toList := by cases t.tag <;> decide
  rw [Table.toList_text]
  simp [hcode, hbody]

omit h in
theorem writes_text : Description.Writes t.tag t.text.toList :=
  ⟨[], [], t.body, by simp, by simp, by simp [Table.toList_text]⟩

theorem ofText_text (htag : t.tag ≠ .header) :
    Description.Part.ofText literals t.text.toList = .content (t.read literals) := by
  rw [Description.Part.ofText_of_writes writes_text htag, (tight_text h).compact_eq,
    Table.toList_text, Section.read_ofText (Description.isLetter_code t.tag)
      (Description.code_ne_nil t.tag)]
  rfl

end Tables

section Header

variable {r : ClassRecord} (hr : r.Spelled)

def headerFields (r : ClassRecord) : List (List Char) :=
  [Tag.header.code.toList, r.name.toList, (r.parent.getD "").toList, (entries r.interfaces).toList]

theorem toList_header (r : ClassRecord) :
    (header r).toList = ['\''].intercalate (headerFields r) := by
  rw [header, String.toList_intercalate]
  rfl

theorem writes_header (r : ClassRecord) : Description.Writes .header (header r).toList := by
  refine ⟨[], [], ['\''].intercalate (headerFields r).tail, by simp, by simp, ?_⟩
  rw [toList_header, headerFields, List.intercalate_cons_cons]
  simp

include hr

theorem parent_getD : Column (r.parent.getD "") ∧ '\'' ∉ (r.parent.getD "").toList := by
  cases hp : r.parent with
  | none => exact ⟨column_empty, by simp⟩
  | some p =>
    have htitle : Title p := hr.parent p (by simp [hp])
    exact ⟨htitle.toColumn, htitle.quote⟩

theorem field_of_mem_headerFields :
    ∀ f ∈ headerFields r, Tight f ∧ ';' ∉ f ∧ '\'' ∉ f := by
  have hinterfaces : Column (entries r.interfaces) :=
    column_entries fun i hi => (hr.interfaces i hi).1.toColumn
  have hquote : '\'' ∉ (entries r.interfaces).toList :=
    not_mem_entries (by decide) fun i hi => (hr.interfaces i hi).2
  obtain ⟨hparent, hparentQuote⟩ := parent_getD hr
  intro f hf
  simp only [headerFields, List.mem_cons, List.not_mem_nil, or_false] at hf
  rcases hf with rfl | rfl | rfl | rfl
  · exact ⟨tight_code .header, by decide, by decide⟩
  · exact ⟨hr.name.tight, hr.name.uncut, hr.name.quote⟩
  · exact ⟨hparent.tight, hparent.uncut, hparentQuote⟩
  · exact ⟨hinterfaces.tight, hinterfaces.uncut, hquote⟩

theorem tight_header : Tight (header r).toList := by
  rw [toList_header]
  apply intercalate_induction Layout.tight_nil
  · intro l r hl hr
    exact hl.join (by decide) hr
  · intro f hf
    exact (field_of_mem_headerFields hr f hf).1

theorem section_not_mem_header : ';' ∉ (header r).toList := by
  rw [toList_header]
  apply not_mem_intercalate (by decide)
  intro f hf
  exact (field_of_mem_headerFields hr f hf).2.1

theorem pieces_header : Text.pieces (· == '\'') (header r).toList = headerFields r := by
  rw [toList_header]
  apply Text.pieces_intercalate (by simp [headerFields])
  intro f hf
  exact (field_of_mem_headerFields hr f hf).2.2

theorem headerOf_header :
    Description.Part.headerOf (header r).toList = ⟨r.name, r.parent, r.interfaces⟩ := by
  have hfields : (Segment.ofText (header r).toList).fields = headerFields r := by
    rw [(Segment.lexed_ofText _).fields_eq, Segment.text_ofText, pieces_header hr]
  have hname : Header.trimmedField r.name.toList = r.name := by
    rw [Header.trimmedField, hr.name.trim_toList, String.ofList_toList]
  have hparent : Header.trimmedField (r.parent.getD "").toList = r.parent.getD "" := by
    rw [Header.trimmedField, (parent_getD hr).1.trim_toList, String.ofList_toList]
  have hoption : (some (r.parent.getD "")).filter (· ≠ "") = r.parent := by
    cases hp : r.parent with
    | none => rfl
    | some p => simp [(hr.parent p (by simp [hp])).ne_empty]
  have hinterfaces : Header.interfacesOf (entries r.interfaces).toList = r.interfaces :=
    filter_items_entries fun i hi => (hr.interfaces i hi).1
  rw [Description.Part.headerOf, (tight_header hr).compact_eq, Header.ofSegment]
  simp only [hfields, headerFields, List.drop_succ_cons, List.drop_zero, List.getElem?_cons_zero,
    List.getElem?_cons_succ, Option.map_some, Option.getD_some, hname, hparent, hinterfaces,
    hoption]

end Header

section Description

variable {r : ClassRecord} (hliteral : ∀ type, Entry (literals.literal type)) (hr : r.Spelled)

theorem tag_ne_header {m : Members} {t : Table} (ht : t ∈ tables literals m) : t.tag ≠ .header := by
  obtain ⟨list, -, ht⟩ := List.mem_flatMap.mp ht
  intro htag
  have hlist := list?_tag_of_mem_tablesOf ht
  rw [htag] at hlist
  simp [Tag.list?] at hlist

def sectionTexts (literals : DefaultTable) (r : ClassRecord) : List (List Char) :=
  (sections literals r).map String.toList

theorem sectionTexts_eq : sectionTexts literals r =
    (header r).toList :: (tables literals r.toMembers).map fun t => t.text.toList := by
  rw [sectionTexts, sections_eq, List.map_cons, List.map_map]
  rfl

theorem write_eq_joinSections :
    write literals r = Description.joinSections (sectionTexts literals r) := by
  apply String.toList_injective
  rw [write, Description.joinSections, String.toList_ofList, String.toList_intercalate]
  rfl

include hliteral hr

theorem column_of_mem_tables {t : Table} (ht : t ∈ tables literals r.toMembers) :
    ∀ c ∈ t.columns, Column c := by
  obtain ⟨list, -, ht⟩ := List.mem_flatMap.mp ht
  exact column_of_mem_tablesOf hliteral hr.members ht

theorem oneHeader_sectionTexts :
    Description.OneHeader (sectionTexts literals r) (header r).toList where
  cut := by
    intro s hs
    rw [sectionTexts_eq] at hs
    rcases List.mem_cons.mp hs with rfl | hs
    · exact section_not_mem_header hr
    · obtain ⟨t, ht, rfl⟩ := List.mem_map.mp hs
      exact section_not_mem_text (column_of_mem_tables hliteral hr ht)
  header := by
    have hothers : ((tables literals r.toMembers).map fun t => t.text.toList).filter
        (Description.Writes .header ·) = [] := by
      rw [List.filter_eq_nil_iff]
      intro s hs
      obtain ⟨t, ht, rfl⟩ := List.mem_map.mp hs
      have hnot : ¬Description.Writes .header t.text.toList := fun hw =>
        tag_ne_header ht (writes_text.unique hw)
      simpa using hnot
    rw [sectionTexts_eq, List.filter_cons, hothers]
    simp [writes_header r]
  named := by
    have hname : Description.nameField (header r).toList = r.name.toList := by
      rw [Description.nameField, pieces_header hr]
      rfl
    rw [hname]
    obtain ⟨c, rest, hc⟩ := List.exists_cons_of_ne_nil (ne_empty_iff.mp hr.name.ne_empty)
    exact ⟨c, by simp [hc], hr.name.tight.head? c (by simp [hc])⟩

theorem ofText_of_mem_tables {t : Table} (ht : t ∈ tables literals r.toMembers) :
    Description.Part.ofText literals t.text.toList = .content (t.read literals) :=
  ofText_text (column_of_mem_tables hliteral hr ht) (tag_ne_header ht)

theorem membersOf_sectionTexts :
    Description.membersOf ((sectionTexts literals r).map (Description.Part.ofText literals)) =
      Members.concat ((tables literals r.toMembers).map fun t => (t.read literals).members) := by
  rw [Description.membersOf_map_ofText, sectionTexts_eq, List.map_cons, List.map_map,
    Description.Part.members_ofText_of_writes_header (writes_header r), Members.concat_cons,
    Members.empty_append]
  refine congrArg Members.concat (List.map_congr_left fun t ht => ?_)
  rw [Function.comp_apply, ofText_of_mem_tables hliteral hr ht]
  rfl

theorem diagnosticsOf_sectionTexts
    (h : ∀ t ∈ tables literals r.toMembers, (t.read literals).omissions = []) :
    Description.diagnosticsOf
      ((sectionTexts literals r).map (Description.Part.ofText literals)) = [] := by
  have hnone : ∀ s ∈ sectionTexts literals r,
      (Description.Part.ofText literals s).omissions = [] := by
    intro s hs
    rw [sectionTexts_eq] at hs
    rcases List.mem_cons.mp hs with rfl | hs
    · exact Description.Part.omissions_ofText_of_writes_header (writes_header r)
    · obtain ⟨t, ht, rfl⟩ := List.mem_map.mp hs
      rw [ofText_of_mem_tables hliteral hr ht]
      exact h t ht
  rw [Description.diagnosticsOf, List.flatMap_eq_nil_iff]
  rintro ⟨p, index⟩ hp
  obtain ⟨s, hs, rfl⟩ := List.mem_map.mp (List.fst_mem_of_mem_zipIdx hp)
  simp only [hnone s hs, List.map_nil]

/-- Parsing a canonical description gives the header as it was written and what is read from the
tables. -/
theorem parse_write (id : String) :
    Description.parse literals id (write literals r) =
      .ok ⟨recordWith r id (Members.concat
          ((tables literals r.toMembers).map fun t => (t.read literals).members)),
        Description.diagnosticsOf
          ((sectionTexts literals r).map (Description.Part.ofText literals))⟩ := by
  rw [write_eq_joinSections, (oneHeader_sectionTexts hliteral hr).parse_eq id,
    membersOf_sectionTexts hliteral hr, headerOf_header hr]
  rfl

theorem parse_write_of_separable (id : String)
    (hsep : ∀ t ∈ tables literals r.toMembers, t.Separable) :
    Description.parse literals id (write literals r) =
      .ok ⟨recordWith r id (r.toMembers.written literals), []⟩ := by
  have homissions : ∀ t ∈ tables literals r.toMembers, (t.read literals).omissions = [] := by
    intro t ht
    obtain ⟨list, -, hlist⟩ := List.mem_flatMap.mp ht
    exact omissions_read hliteral hr.members hlist (hsep t ht)
  rw [parse_write hliteral hr, (concat_read_iff hliteral hr.members).mpr hsep,
    diagnosticsOf_sectionTexts hliteral hr homissions]

end Description

end Canonical

/-- The texts in the record are cells, where the names of the record, of its parent and of its
enumerations may hold commas. Nothing is asked of the id, the kind, the position and the bodies. -/
structure ClassRecord.OfCells (r : ClassRecord) : Prop where
  name : Plain r.name
  parent : ∀ p ∈ r.parent, Plain p
  interfaces : ∀ i ∈ r.interfaces, Cell i
  members : r.toMembers.Spelled Cell Plain fun p => Cell p ∧ '|' ∉ p.toList

namespace Canonical

section Cells

variable {literals : DefaultTable} {r : ClassRecord}

theorem spelled_of_cells (h : r.OfCells) : r.Spelled where
  name := h.name.title
  parent p hp := (h.parent p hp).title
  interfaces i hi := ⟨(h.interfaces i hi).entry, (h.interfaces i hi).quote⟩
  members := h.members.imp (fun _ hs => hs.entry) (fun _ hs => hs.title.toPhrase)
    fun _ hs => ⟨hs.1.entry, hs.2⟩

theorem separable_of_not_mem {t : Table} (h : ∀ c ∈ t.columns, '\'' ∉ c.toList) : t.Separable := by
  have hcolumns : ∀ c ∈ t.columns.map String.toList, '\'' ∉ c := by simpa using h
  constructor
  · intro c hc hhead
    exact hcolumns c (List.mem_of_mem_head? hc) (List.mem_of_mem_head? hhead)
  · intro c hc hlast
    exact hcolumns c (List.mem_of_mem_dropLast hc) (List.mem_of_getLast? hlast)

theorem separable_of_cells (hliteral : ∀ type, Cell (literals.literal type)) (h : r.OfCells) :
    ∀ t ∈ tables literals r.toMembers, t.Separable := by
  have hquote : r.toMembers.Spelled (fun s => '\'' ∉ s.toList) (fun s => '\'' ∉ s.toList)
      fun s => '\'' ∉ s.toList :=
    h.members.imp (fun _ hs => hs.quote) (fun _ hs => hs.quote) fun _ hs => hs.1.quote
  intro t ht
  obtain ⟨list, -, ht⟩ := List.mem_flatMap.mp ht
  apply separable_of_not_mem
  exact forall_mem_columns (by simp) (fun _ hl => not_mem_entries (by decide) hl)
    (fun _ hl => not_mem_groups (by decide) (by decide) hl) (fun type => (hliteral type).quote)
    hquote ht

theorem cell_engine (type : String) : Cell (DefaultTable.engine.literal type) := by
  have hnull : Cell "null" := by decide +kernel
  unfold DefaultTable.engine DefaultTable.ofEntries
  dsimp only
  generalize hentries : [("int", "0"), ("float", "0.0"), ("bool", "false"), ("String", "\"\""),
    ("Vector2", "Vector2.ZERO"), ("Vector3", "Vector3.ZERO"), ("Color", "Color.WHITE"),
    ("Array", "[]"), ("Dictionary", "\x7b\x7d")] = listed
  have hlisted : ∀ e ∈ listed, Cell e.2 := by
    rw [← hentries]
    decide +kernel
  cases h : listed.lookup type with
  | none => exact hnull
  | some literal =>
    obtain ⟨before, after, hsplit, -⟩ := List.lookup_eq_some_iff.mp h
    exact hlisted (type, literal) (by simp [hsplit])

/-- Parsing undoes writing. A record of cells, written and parsed with a table of literals that are
cells, as those of the engine are, comes back without diagnostics. Only its id, kind and position,
the bodies of its functions and the defaults that its flags, current and unique properties lack are
new. -/
theorem parse_write_of_cells :
    (∀ type, Cell (DefaultTable.engine.literal type)) ∧
      ∀ literals : DefaultTable, (∀ type, Cell (literals.literal type)) →
        ∀ r : ClassRecord, r.OfCells → ∀ id : String,
          Description.parse literals id (write literals r) =
            .ok
              { record :=
                  { r with
                    id
                    kind := ClassKind.infer r.name
                    position := { x := 0, y := 0 }
                    flags := r.flags.map fun p =>
                      { p with default := some (p.default.getD (literals.literal p.type)) }
                    currentProps := r.currentProps.map fun p =>
                      { p with default := some (p.default.getD (literals.literal p.type)) }
                    uniqueProps := r.uniqueProps.map fun p =>
                      { p with default := some (p.default.getD (literals.literal p.type)) }
                    functions := r.functions.map fun f =>
                      { f with body := some ("# Implement " ++ f.name) } }
                diagnostics := [] } := by
  refine ⟨cell_engine, fun literals hliteral r h id => ?_⟩
  have hentry : ∀ type, Entry (literals.literal type) := fun type => (hliteral type).entry
  exact parse_write_of_separable hentry (spelled_of_cells h) id (separable_of_cells hliteral h)

theorem parse_write_of_cells_player :
    Description.parse .engine "dsl_2" (write .engine
        { id := "draft", name := "Player, Local", parent := some "Node", interfaces := ["IMove"]
          position := { x := 4, y := 2 }
          signals := [⟨"hit", ["by: Node", "hard"]⟩, ⟨"left", []⟩]
          enums := [⟨"Mode, All", ["Idle", "Run Fast"]⟩]
          flags := [⟨"ready", "bool", none⟩]
          functions := [⟨"step", [], "void", some "pass"⟩] }) =
      .ok
        { record :=
            { id := "dsl_2", name := "Player, Local", parent := some "Node", interfaces := ["IMove"]
              signals := [⟨"hit", ["by: Node", "hard"]⟩, ⟨"left", []⟩]
              enums := [⟨"Mode, All", ["Idle", "Run Fast"]⟩]
              flags := [⟨"ready", "bool", some "false"⟩]
              functions := [⟨"step", [], "void", some "# Implement step"⟩] }
          diagnostics := [] } := by
  have hkind : ClassKind.infer "Player, Local" = .normal := by decide
  have hliteral : DefaultTable.engine.literal "bool" = "false" := by decide
  have hbody : "# Implement " ++ "step" = "# Implement step" := by decide
  refine (parse_write_of_cells.2 .engine parse_write_of_cells.1 _ ?_ "dsl_2").trans ?_
  · constructor
    case members =>
      constructor
      case properties =>
        intro group
        cases group <;> decide +kernel
      all_goals decide +kernel
    all_goals decide +kernel
  · simp only [List.map_cons, List.map_nil, Option.getD_none, hkind, hliteral, hbody]

end Cells

end Canonical

end Blueprint
