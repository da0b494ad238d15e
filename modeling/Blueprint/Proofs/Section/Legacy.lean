import Blueprint.Proofs.Canonical.Cells
import Blueprint.Proofs.Description.Completeness
import Blueprint.Proofs.Section.Accounting

/-!
# Legacy sections

A legacy section has a column of names and one of types. It says what a section of unique properties
says with the same two columns and an empty column of values, but a row without a type, which is
given a substitute there, is left out and reported here. This holds whatever the columns are: both are
compared with one reading of the two columns that goes down them in step.
-/

namespace Blueprint

namespace Section

/-- A row with a name: its number, its name, and its type unless that is missing or empty. -/
structure TypedRow where
  number : Nat
  name : String
  type? : Option String
  deriving DecidableEq

/-- The unique property of a row of names and types alone. -/
def TypedRow.property (table : DefaultTable) (row : TypedRow) : Property :=
  ⟨row.name, row.type?.getD "var", some (table.literal (row.type?.getD "var"))⟩

def typedRows (number : Nat) : List String → List String → List TypedRow
  | [], _ => []
  | name :: names, types =>
    (if name = "" then [] else [⟨number, name, types.head?.filter (· ≠ "")⟩]) ++
      typedRows (number + 1) names types.tail

/-- What is reported of columns of names and types under every tag: the types behind the last name,
and the rows without a name. -/
def sharedReports (tag : Tag) (names types : List String) : List Omission :=
  (if names.length < types.length then [.surplusValues tag 1 (types.length - names.length)]
    else []) ++ (names.idxsOf "").map (.emptyName tag)

section Rows

variable {α : Type}

theorem namedRows_eq_map_typedRows (names types : List String)
    (member : Nat → String → Option String → α) :
    namedRows names (fun i name => member i name (cell types i)) =
      (typedRows 0 names types).map fun row => member row.number row.name row.type? := by
  have main : ∀ (rest : List String) (number : Nat),
      (rest.zipIdx number).filterMap (fun ni =>
          if ni.1 = "" then none else some (member ni.2 ni.1 (cell types ni.2))) =
        (typedRows number rest (types.drop number)).map fun row =>
          member row.number row.name row.type? := by
    intro rest
    induction rest with
    | nil => intro number; rfl
    | cons name rest ih =>
      intro number
      have hrest := ih (number + 1)
      have hcell : cell types number = (types.drop number).head?.filter (· ≠ "") := by
        rw [cell, List.head?_drop]
      by_cases hname : name = "" <;> simp [typedRows, hname, hrest, hcell]
  exact main names 0

theorem reduceOption_map {rows : List TypedRow} {member : TypedRow → Option α} {p : TypedRow → Bool}
    {made : TypedRow → α} (h : ∀ row, member row = if p row then some (made row) else none) :
    (rows.map member).reduceOption = (rows.filter p).map made := by
  rw [reduceOption_eq_filterMap, List.filterMap_map, Function.id_comp]
  induction rows with
  | nil => rfl
  | cons row rows ih =>
    by_cases hp : p row = true
    · have hrow : member row = some (made row) := (h row).trans (if_pos hp)
      rw [List.filterMap_cons_some hrow, ih, List.filter_cons_of_pos hp, List.map_cons]
    · have hrow : member row = none := (h row).trans (if_neg hp)
      rw [List.filterMap_cons_none hrow, ih, List.filter_cons_of_neg hp]

theorem namelessRows_eq_map (tag : Tag) (names : List String) :
    namelessRows tag names = (names.idxsOf "").map (.emptyName tag) := by
  have main : ∀ (rest : List String) (number : Nat),
      (rest.zipIdx number).filterMap (fun ni =>
          if ni.1 = "" then some (Omission.emptyName tag ni.2) else none) =
        (rest.findIdxs (· == "") number).map (.emptyName tag) := by
    intro rest
    induction rest with
    | nil => intro number; rfl
    | cons name rest ih =>
      intro number
      by_cases hname : name = "" <;> simp [hname, ih]
  exact main names 0

theorem tableOmissions_pair (tag : Tag) (names types : List String) :
    tableOmissions tag names [types.length] = sharedReports tag names types := by
  simp [tableOmissions, sharedReports, namelessRows_eq_map, surplus]

end Rows

section Contents

variable (table : DefaultTable) {names types : List String}

theorem legacyVars_eq :
    legacyVars table names types =
      let rows := typedRows 0 names types
      { members :=
          { uniqueProps := (rows.filter (·.type?.isSome)).map (TypedRow.property table) }
        omissions := sharedReports .legacyVars names types ++
          (rows.filter (·.type?.isNone)).map fun row => .incompleteRow .legacyVars row.number } := by
  have hmembers : (namedRows names fun i name => (cell types i).map fun type =>
        (⟨name, type, some (table.literal type)⟩ : Property)).reduceOption =
      ((typedRows 0 names types).filter (·.type?.isSome)).map (TypedRow.property table) := by
    rw [namedRows_eq_map_typedRows names types fun _ name type? =>
      type?.map fun type => (⟨name, type, some (table.literal type)⟩ : Property)]
    apply reduceOption_map
    intro row
    cases htype : row.type? <;> simp [TypedRow.property, htype]
  have hreports : (namedRows names fun i _ => if (cell types i).isNone then
        some (Omission.incompleteRow .legacyVars i) else none).reduceOption =
      ((typedRows 0 names types).filter (·.type?.isNone)).map fun row =>
        .incompleteRow .legacyVars row.number := by
    rw [namedRows_eq_map_typedRows names types fun i _ type? =>
      if type?.isNone then some (Omission.incompleteRow .legacyVars i) else none]
    apply reduceOption_map
    intro row
    rfl
  rw [legacyVars, hmembers, hreports, tableOmissions_pair]

theorem properties_eq :
    properties table "var" names types [""] =
      (typedRows 0 names types).map (TypedRow.property table) := by
  have hvalue : ∀ row, cell [""] row = none := by
    intro row
    cases row <;> simp [cell]
  have hrows := namedRows_eq_map_typedRows names types fun _ name type? =>
    (⟨name, type?.getD "var", some (table.literal (type?.getD "var"))⟩ : Property)
  simp only [properties, hvalue, Option.getD_none]
  exact hrows

/-- A column of one entry is never longer than the names, of which there is one at least. -/
theorem tableOmissions_triple (tag : Tag) (hne : names ≠ []) :
    tableOmissions tag names [types.length, 1] = sharedReports tag names types := by
  have hlength : 0 < names.length := List.length_pos_of_ne_nil hne
  have hshort : surplus tag 2 1 names.length = [] := if_neg (by omega)
  simp [← tableOmissions_pair, tableOmissions, hshort]

theorem sharedReports_congr {types' : List String} (h : types.length = types'.length) (tag : Tag) :
    sharedReports tag names types = sharedReports tag names types' := by
  rw [sharedReports, sharedReports, h]

end Contents

/-- What a legacy section and one of unique properties say of the same names and types. -/
structure Agree (table : DefaultTable) (names types : List String) (legacy unique : Content) :
    Prop where
  /-- The one has a property for each row with a name. -/
  unique_members :
    unique.members = { uniqueProps := (typedRows 0 names types).map (TypedRow.property table) }
  /-- The other has the same properties but those of the rows without a type. -/
  legacy_members :
    legacy.members =
      { uniqueProps :=
          ((typedRows 0 names types).filter (·.type?.isSome)).map (TypedRow.property table) }
  unique_omissions : unique.omissions = sharedReports .uniqueProps names types
  /-- The rows without a type are reported once each, behind what both of them report. -/
  legacy_omissions :
    legacy.omissions = sharedReports .legacyVars names types ++
      ((typedRows 0 names types).filter (·.type?.isNone)).map fun row =>
        .incompleteRow .legacyVars row.number

/-- The two agree on the columns they read. When there is no name, these need not be the same. -/
theorem agree_of_lists (table : DefaultTable) {names types second second' third : List String}
    (hne : names ≠ []) (hsecond : second.length = types.length)
    (hsecond' : second'.length = types.length) (hthird : third.length = 1)
    (h : names = [""] ∨ second = types ∧ second' = types ∧ third = [""]) :
    Agree table names types (legacyVars table names second)
      { members := { uniqueProps := properties table "var" names second' third }
        omissions := tableOmissions .uniqueProps names [second'.length, third.length] } := by
  have hreports : tableOmissions .uniqueProps names [second'.length, third.length] =
      sharedReports .uniqueProps names types := by
    rw [hthird, tableOmissions_triple .uniqueProps hne, sharedReports_congr hsecond']
  rcases h with rfl | ⟨rfl, rfl, rfl⟩
  · have hnone : ∀ types : List String, typedRows 0 [""] types = [] := fun _ => rfl
    rw [legacyVars_eq, sharedReports_congr hsecond]
    constructor <;> simp [hnone, hreports, properties, namedRows]
  · rw [legacyVars_eq, properties_eq]
    exact ⟨rfl, rfl, hreports, rfl⟩

def columnsText (tag : Tag) (columns : List (List Char)) : List Char :=
  tag.code.toList ++ '\'' :: ['\'', '\''].intercalate columns

section Columns

open Text (Unpaired)

theorem length_items (text : List Char) : (Text.items text).length = text.countP (· == ',') + 1 := by
  rw [Text.items, List.length_map, Text.length_pieces]

theorem items_ne_nil (text : List Char) : Text.items text ≠ [] :=
  List.ne_nil_of_length_pos (by rw [length_items]; omega)

theorem length_items_quote (text : List Char) :
    (Text.items ('\'' :: text)).length = (Text.items text).length := by
  simp [length_items]

theorem read_columnsText (table : DefaultTable) (tag : Tag) (columns : List (List Char)) :
    read table tag (Segment.ofText (columnsText tag columns)) =
      readText table tag (['\'', '\''].intercalate columns) :=
  read_ofText (Description.isLetter_code tag) (Description.code_ne_nil tag) _

theorem readText_of_columns {table : DefaultTable} {tag : Tag} {rest : List Char}
    {columns : List (List Char)} (h : columnsAfterTag rest = columns)
    (henough : tag.columnsNeeded ≤ columns.length) :
    readText table tag rest = ofTexts table tag columns := by
  rw [readText, h, if_neg (Nat.not_lt.mpr henough)]

theorem readText_legacy {table : DefaultTable} {rest names types : List Char}
    (h : columnsAfterTag rest = [names, types]) :
    readText table .legacyVars rest = legacyVars table (Text.items names) (Text.items types) := by
  rw [readText_of_columns h (by simp [Tag.columnsNeeded]), ofTexts_eq]
  rfl

theorem readText_unique {table : DefaultTable} {rest names types values : List Char}
    (h : columnsAfterTag rest = [names, types, values]) :
    readText table .uniqueProps rest =
      { members :=
          { uniqueProps :=
              properties table "var" (Text.items names) (Text.items types) (Text.items values) }
        omissions := tableOmissions .uniqueProps (Text.items names)
          [(Text.items types).length, (Text.items values).length] } := by
  rw [readText_of_columns h (by simp [Tag.columnsNeeded]), ofTexts_eq]
  rfl

theorem unpaired_quote {text : List Char} (h : '\'' ∉ text) : Unpaired ('\'' :: text) :=
  Text.unpaired_cons_quote (Text.unpaired_of_not_mem h) fun hhead => h (List.mem_of_head? hhead)

theorem separable_of_not_mem {columns : List (List Char)} (h : ∀ c ∈ columns, '\'' ∉ c) :
    Separable columns where
  head c hc hquote := h c (List.mem_of_head? hc) (List.mem_of_head? hquote)
  last c hc hquote := h c (List.mem_of_mem_dropLast hc) (List.mem_of_getLast? hquote)

/-- Columns without quotes, of which the first is not empty, come apart as they were put together. -/
theorem columnsAfterTag_of_not_mem {first : List Char} {others : List (List Char)}
    (hne : first ≠ []) (h : ∀ c ∈ first :: others, '\'' ∉ c) :
    columnsAfterTag (['\'', '\''].intercalate (first :: others)) = first :: others :=
  columnsAfterTag_intercalate hne (fun c hc => Text.unpaired_of_not_mem (h c hc))
    (separable_of_not_mem h)

variable {N T : List Char}

/-- The columns of names and types. Without any names the quote of the tag makes a pair with the one
behind it, and the second quote of the pair meant to follow the names starts the types. -/
theorem columnsAfterTag_legacy (hN : '\'' ∉ N) (hT : '\'' ∉ T) :
    columnsAfterTag (['\'', '\''].intercalate [N, T]) =
      if N = [] then [[], '\'' :: T] else [N, T] := by
  by_cases hne : N = []
  · subst hne
    rw [if_pos rfl, Text.intercalate_pair, List.nil_append, columnsAfterTag_quote,
      List.intercalate_singleton, Text.columns_eq_singleton (unpaired_quote hT)]
  · rw [if_neg hne, columnsAfterTag_of_not_mem hne (by simp [hN, hT])]

/-- With an empty column of values behind them, a quote that is left over when there are neither names
nor types ends up in that column. -/
theorem columnsAfterTag_unique (hN : '\'' ∉ N) (hT : '\'' ∉ T) :
    columnsAfterTag (['\'', '\''].intercalate [N, T, []]) =
      if N = [] then if T = [] then [[], [], ['\'']] else [[], '\'' :: T, []]
      else [N, T, []] := by
  by_cases hne : N = []
  · subst hne
    rw [if_pos rfl]
    by_cases hempty : T = []
    · subst hempty
      rfl
    · have hlast : ('\'' :: T).getLast? ≠ some '\'' := by
        obtain ⟨c, cs, rfl⟩ := List.exists_cons_of_ne_nil hempty
        rw [List.getLast?_cons_cons]
        exact fun hquote => hT (List.mem_of_getLast? hquote)
      rw [if_neg hempty, Text.intercalate_pair, List.nil_append, columnsAfterTag_quote,
        Text.intercalate_pair, ← List.cons_append, Text.columns_append_pair (unpaired_quote hT) hlast]
      rfl
  · rw [if_neg hne, columnsAfterTag_of_not_mem hne (by simp [hN, hT])]

/-- Read from their sections, the names and types are the entries between the commas of the texts. -/
theorem agree_read (table : DefaultTable) (hN : '\'' ∉ N) (hT : '\'' ∉ T) :
    Agree table (Text.items N) (Text.items T)
      (read table .legacyVars (Segment.ofText (columnsText .legacyVars [N, T])))
      (read table .uniqueProps (Segment.ofText (columnsText .uniqueProps [N, T, []]))) := by
  have hlegacy := columnsAfterTag_legacy hN hT
  have hunique := columnsAfterTag_unique hN hT
  rw [read_columnsText, read_columnsText]
  by_cases hnames : N = []
  · rw [if_pos hnames] at hlegacy hunique
    rw [readText_legacy hlegacy]
    by_cases htypes : T = []
    · rw [if_pos htypes] at hunique
      rw [readText_unique hunique, hnames, htypes]
      exact agree_of_lists table (items_ne_nil []) rfl rfl rfl (.inl rfl)
    · rw [if_neg htypes] at hunique
      rw [readText_unique hunique, hnames]
      exact agree_of_lists table (items_ne_nil []) (length_items_quote T) (length_items_quote T) rfl
        (.inl rfl)
  · rw [if_neg hnames] at hlegacy hunique
    rw [readText_legacy hlegacy, readText_unique hunique]
    exact agree_of_lists table (items_ne_nil N) rfl rfl rfl (.inr ⟨rfl, rfl, rfl⟩)

end Columns

end Section

namespace Description

open Layout (compact)
open Section (Agree columnsText)

variable {table : DefaultTable}

/-- What two descriptions give of which one section has another content: the same fault, or records
and diagnostics that differ by what the section adds to them. -/
inductive DifferAt (index : Nat) (c c' : Section.Content) :
    Except HeaderFault Parsed → Except HeaderFault Parsed → Prop
  | fault (fault : HeaderFault) : DifferAt index c c' (.error fault) (.error fault)
  | parsed {p p' : Parsed} {l r : Members} {before after : List Diagnostic}
      (members : p'.record.toMembers = l ++ c'.members ++ r)
      (record : p.record = { p'.record with toMembers := l ++ c.members ++ r })
      (diagnostics : p.diagnostics = before ++ c.omissions.map (⟨index, ·⟩) ++ after)
      (diagnostics' : p'.diagnostics = before ++ c'.omissions.map (⟨index, ·⟩) ++ after) :
      DifferAt index c c' (.ok p) (.ok p')

section Exchange

theorem diagnosticsOf_append_cons (ps qs : List Part) (p : Part) :
    diagnosticsOf (ps ++ p :: qs) =
      diagnosticsOf ps ++ p.omissions.map (⟨ps.length, ·⟩) ++
        (qs.zipIdx (ps.length + 1)).flatMap fun q => q.1.omissions.map (⟨q.2, ·⟩) := by
  simp [diagnosticsOf, List.zipIdx_append, List.zipIdx_cons]

variable {t t' : List Char} {before after : List (List Char)} {c c' : Section.Content} {s s' : String}

theorem not_writes_header_of_content (hc : Part.ofText table t = .content c) :
    ¬Writes .header t := by
  intro hw
  rw [Part.ofText_of_writes_header hw] at hc
  simp at hc

theorem headerSections_of_not_writes
    (hs : Text.pieces (· == ';') s.toList = before ++ t :: after) (ht : ¬Writes .header t) :
    headerSections s.toList =
      before.zipIdx.filter (fun ti => Writes .header ti.1) ++
        (after.zipIdx (before.length + 1)).filter fun ti => Writes .header ti.1 := by
  simp [headerSections, hs, List.zipIdx_append, List.zipIdx_cons, ht]

theorem membersOf_parts (hs : Text.pieces (· == ';') s.toList = before ++ t :: after)
    (hc : Part.ofText table t = .content c) :
    membersOf (parts table s.toList) =
      membersOf (before.map (Part.ofText table)) ++ c.members ++
        membersOf (after.map (Part.ofText table)) := by
  rw [parts_eq_map, hs, membersOf_map_append, Members.append_assoc, List.map_cons, hc]
  rfl

theorem diagnosticsOf_parts (hs : Text.pieces (· == ';') s.toList = before ++ t :: after)
    (hc : Part.ofText table t = .content c) :
    diagnosticsOf (parts table s.toList) =
      diagnosticsOf (before.map (Part.ofText table)) ++ c.omissions.map (⟨before.length, ·⟩) ++
        ((after.map (Part.ofText table)).zipIdx (before.length + 1)).flatMap
          fun q => q.1.omissions.map (⟨q.2, ·⟩) := by
  rw [parts_eq_map, hs, List.map_append, List.map_cons, hc, diagnosticsOf_append_cons,
    List.length_map]
  rfl

/-- Exchanging the content of one section changes the outcome only by what the section adds. -/
theorem differAt_of_sections (hs : Text.pieces (· == ';') s.toList = before ++ t :: after)
    (hs' : Text.pieces (· == ';') s'.toList = before ++ t' :: after)
    (hc : Part.ofText table t = .content c) (hc' : Part.ofText table t' = .content c') (id : String) :
    DifferAt before.length c c' (parse table id s) (parse table id s') := by
  have hheaders : headerSections s.toList = headerSections s'.toList := by
    rw [headerSections_of_not_writes hs (not_writes_header_of_content hc),
      headerSections_of_not_writes hs' (not_writes_header_of_content hc')]
  cases hp : parse table id s with
  | error fault =>
    have hp' : parse table id s' = .error fault := by
      rw [parse_eq_error_iff_headerFault?] at hp ⊢
      rw [← hheaders, hp]
    rw [hp']
    exact .fault fault
  | ok p =>
    obtain ⟨p', hp'⟩ : ∃ p', parse table id s' = .ok p' := by
      rw [exists_parse_iff, ← hheaders]
      exact exists_parse_iff.mp ⟨p, hp⟩
    rw [hp']
    obtain ⟨head, index, hhead, -, rfl⟩ := exists_headerSection_of_parse hp
    obtain ⟨head', index', hhead', -, rfl⟩ := exists_headerSection_of_parse hp'
    obtain ⟨rfl, -⟩ : head = head' ∧ index = index' := by
      simpa [hhead, hhead'] using hheaders
    have hmembers := membersOf_parts hs hc
    have hmembers' := membersOf_parts hs' hc'
    have hdiagnostics := diagnosticsOf_parts hs hc
    have hdiagnostics' := diagnosticsOf_parts hs' hc'
    refine .parsed hmembers' ?_ hdiagnostics hdiagnostics'
    rw [hmembers]
    rfl

end Exchange

section Texts

variable (table : DefaultTable) (tag : Tag) (columns : List (List Char))

theorem compact_code : compact tag.code.toList = tag.code.toList := by
  cases tag <;> decide +kernel

theorem compact_append_pair (l r : List Char) :
    compact (l ++ ['\'', '\''] ++ r) = compact l ++ ['\'', '\''] ++ compact r := by
  have hquote : Layout.isEdge '\'' = true := by decide
  have hpair : l ++ ['\'', '\''] ++ r = l ++ '\'' :: ([] ++ '\'' :: r) := by simp
  rw [hpair, Layout.compact_append_edge hquote, Layout.compact_append_edge hquote, Layout.compact_nil]
  simp

theorem compact_columnsText :
    compact (columnsText tag columns) = columnsText tag (columns.map compact) := by
  have hcolumns : compact (['\'', '\''].intercalate columns) =
      ['\'', '\''].intercalate (columns.map compact) := by
    cases columns with
    | nil => rfl
    | cons column columns => exact Text.form_intercalate compact_append_pair (by simp)
  rw [columnsText, Layout.compact_append_edge (by decide), compact_code, hcolumns]
  rfl

theorem ofText_columnsText (htag : tag ≠ .header) :
    Part.ofText table (columnsText tag columns) = .content
      (Section.read table tag (Segment.ofText (columnsText tag (columns.map compact)))) := by
  have hw : Writes tag (columnsText tag columns) :=
    ⟨[], [], _, by simp, by simp, by rw [columnsText, List.nil_append, List.append_nil]⟩
  rw [Part.ofText_of_writes hw htag, compact_columnsText]

theorem section_not_mem_columnsText (h : ∀ c ∈ columns, ';' ∉ c) :
    ';' ∉ columnsText tag columns := by
  have hcode : ';' ∉ tag.code.toList := fun hmem =>
    absurd (isLetter_code tag ';' hmem) (by decide)
  have hcolumns : ';' ∉ ['\'', '\''].intercalate columns :=
    Canonical.not_mem_intercalate (by decide) h
  simp [columnsText, hcode, hcolumns]

end Texts

/-- A legacy section of names and types and a section of unique properties with the same names and
types and no values agree, read by themselves or anywhere in a description. They report the same types
behind the last name and the same rows without a name. The properties are the same, with the same
defaults and in the same order, but for the rows without a type: the legacy section leaves these out
and reports each of them once. Nothing else differs in what is read from the description. -/
theorem legacy_agrees (table : DefaultTable) {N T : List Char} (hN : ';' ∉ N ∧ '\'' ∉ N)
    (hT : ';' ∉ T ∧ '\'' ∉ T) :
    Agree table (Text.items N) (Text.items T)
        (Section.read table .legacyVars (Segment.ofText (columnsText .legacyVars [N, T])))
        (Section.read table .uniqueProps (Segment.ofText (columnsText .uniqueProps [N, T, []]))) ∧
      ∀ before after : List (List Char), (∀ t ∈ before ++ after, ';' ∉ t) →
        ∃ legacy unique, Agree table (Text.items (compact N)) (Text.items (compact T)) legacy unique ∧
          ∀ id, DifferAt before.length legacy unique
            (parse table id (joinSections (before ++ columnsText .legacyVars [N, T] :: after)))
            (parse table id
              (joinSections (before ++ columnsText .uniqueProps [N, T, []] :: after))) := by
  refine ⟨Section.agree_read table hN.2 hT.2, fun before after hcut => ?_⟩
  have hquote : Layout.isEdge '\'' = true := by decide
  refine ⟨_, _, Section.agree_read table (Layout.edge_not_mem_compact hquote hN.2)
    (Layout.edge_not_mem_compact hquote hT.2), fun id => ?_⟩
  have hpieces : ∀ (tag : Tag) (columns : List (List Char)), (∀ c ∈ columns, ';' ∉ c) →
      Text.pieces (· == ';') (joinSections (before ++ columnsText tag columns :: after)).toList =
        before ++ columnsText tag columns :: after := by
    intro tag columns hcolumns
    have hmark := section_not_mem_columnsText tag columns hcolumns
    rw [joinSections, String.toList_ofList]
    refine Text.pieces_intercalate (by simp) fun part hpart => ?_
    rcases List.mem_append.mp hpart with hmem | hmem
    · exact hcut part (List.mem_append_left after hmem)
    · rcases List.mem_cons.mp hmem with rfl | hmem
      · exact hmark
      · exact hcut part (List.mem_append_right before hmem)
  exact differAt_of_sections (hpieces .legacyVars [N, T] (by simp [hN.1, hT.1]))
    (hpieces .uniqueProps [N, T, []] (by simp [hN.1, hT.1]))
    (ofText_columnsText table .legacyVars [N, T] (by decide))
    (ofText_columnsText table .uniqueProps [N, T, []] (by decide)) id

theorem legacy_agrees_ragged :
    (';' ∉ "a, ,b,c".toList ∧ '\'' ∉ "a, ,b,c".toList) ∧
      (';' ∉ "int,x,,d,e".toList ∧ '\'' ∉ "int,x,,d,e".toList) ∧
      Section.read .engine .legacyVars (Segment.ofText "cv'a, ,b,c''int,x,,d,e".toList) =
        { members := { uniqueProps := [⟨"a", "int", some "0"⟩, ⟨"c", "d", some "null"⟩] }
          omissions := [.surplusValues .legacyVars 1 1, .emptyName .legacyVars 1,
            .incompleteRow .legacyVars 2] } ∧
      Section.read .engine .uniqueProps (Segment.ofText "up'a, ,b,c''int,x,,d,e''".toList) =
        { members :=
            { uniqueProps := [⟨"a", "int", some "0"⟩, ⟨"b", "var", some "null"⟩,
                ⟨"c", "d", some "null"⟩] }
          omissions := [.surplusValues .uniqueProps 1 1, .emptyName .uniqueProps 1] } := by
  have hN : ';' ∉ "a, ,b,c".toList ∧ '\'' ∉ "a, ,b,c".toList := by decide
  have hT : ';' ∉ "int,x,,d,e".toList ∧ '\'' ∉ "int,x,,d,e".toList := by decide
  obtain ⟨hagree, -⟩ := legacy_agrees .engine hN hT
  have hrows : Section.typedRows 0 (Text.items "a, ,b,c".toList) (Text.items "int,x,,d,e".toList) =
      [⟨0, "a", some "int"⟩, ⟨2, "b", none⟩, ⟨3, "c", some "d"⟩] := by decide +kernel
  have hlegacy : "cv'a, ,b,c''int,x,,d,e".toList =
      columnsText .legacyVars ["a, ,b,c".toList, "int,x,,d,e".toList] := by decide +kernel
  have hunique : "up'a, ,b,c''int,x,,d,e''".toList =
      columnsText .uniqueProps ["a, ,b,c".toList, "int,x,,d,e".toList, []] := by decide +kernel
  rw [hlegacy, hunique]
  generalize Section.read .engine .legacyVars _ = legacy at hagree ⊢
  generalize Section.read .engine .uniqueProps _ = unique at hagree ⊢
  obtain ⟨hmembers, hmembers', homissions, homissions'⟩ := hagree
  cases legacy
  cases unique
  subst hmembers hmembers' homissions homissions'
  rw [hrows]
  decide +kernel

end Description

end Blueprint
