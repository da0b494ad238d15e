import Blueprint.Proofs.Description.Faults
import Blueprint.Proofs.Section.Places
import Blueprint.Proofs.Segment.Ranges
import Mathlib.Data.List.Nodup

/-!
# The account of a member section

Every section that lists its members in rows is read by one rule. Each row with a name adds one
member to the list of the tag, made of the entries in that row alone, and what is left out is
reported once: each column with more entries than there are names, each row without a name and, where
no type can be made up, each row that lacks one. Nothing else of the record changes.
-/

namespace Blueprint

namespace Section

/-- What one row of a section says: its name, its entry in each column, unless that is missing or
empty, and its group in each column. -/
structure Row where
  name : String
  entry : Nat → Option String
  group : Nat → List String

namespace Row

def type (untyped : String) (row : Row) : String :=
  (row.entry 1).getD untyped

def value (table : DefaultTable) (untyped : String) (row : Row) : String :=
  (row.entry 2).getD (table.literal (row.type untyped))

def property (table : DefaultTable) (untyped : String) (row : Row) : Property :=
  ⟨row.name, row.type untyped, some (row.value table untyped)⟩

/-- A row of the legacy section is a property only if it has a type. -/
def legacyVar? (table : DefaultTable) (row : Row) : Option Property :=
  (row.entry 1).map fun type => ⟨row.name, type, some (table.literal type)⟩

end Row

/-- The row with this number, if it has a name. -/
def rowAt? (columns : List (List Char)) (i : Nat) : Option Row :=
  ((itemsOf columns 0)[i]?.filter (· ≠ "")).map fun name =>
    { name
      entry := fun column => (itemsOf columns column)[i]?.filter (· ≠ "")
      group := fun column => (groupsOf columns column)[i]?.getD [] }

def rowsOf (columns : List (List Char)) : List Row :=
  (List.range (itemsOf columns 0).length).filterMap (rowAt? columns)

/-- The record with the members that a section with these rows adds. -/
def extend (table : DefaultTable) (tag : Tag) (rows : List Row) (r : ClassRecord) : ClassRecord :=
  match tag with
  | .header | .enumeration => r
  | .legacyVars => { r with uniqueProps := r.uniqueProps ++ rows.filterMap (Row.legacyVar? table) }
  | .signals => { r with signals := r.signals ++ rows.map fun row => ⟨row.name, row.group 1⟩ }
  | .functions =>
    { r with
      functions := r.functions ++
        rows.map fun row =>
          ⟨row.name, row.group 2, row.type "void", some ("# Implement " ++ row.name)⟩ }
  | .constants =>
    { r with
      constants := r.constants ++
        rows.map fun row => ⟨row.name, row.type "var", row.value table "var"⟩ }
  | .flags => { r with flags := r.flags ++ rows.map (Row.property table "bool") }
  | .currentProps => { r with currentProps := r.currentProps ++ rows.map (Row.property table "var") }
  | .uniqueProps => { r with uniqueProps := r.uniqueProps ++ rows.map (Row.property table "var") }
  | .interfaceProps =>
    { r with
      interfaceProps := r.interfaceProps ++
        rows.map fun row => ⟨row.name, row.type "var", row.entry 2⟩ }
  | .components =>
    { r with
      components := r.components ++ rows.map fun row => ⟨row.name, row.type "Component"⟩ }

/-- How many rows a column has something for. -/
def lengthAt (tag : Tag) (columns : List (List Char)) (column : Nat) : Nat :=
  match tag.arrangement column with
  | .groups => (groupsOf columns column).length
  | _ => (itemsOf columns column).length

/-- What has to be reported of a section with these columns. -/
inductive Lost (tag : Tag) (columns : List (List Char)) : Omission → Prop
  | surplus {column : Nat} (hread : 0 < column ∧ column < tag.columnsRead)
      (hlong : (itemsOf columns 0).length < lengthAt tag columns column) :
      Lost tag columns
        (.surplusValues tag column (lengthAt tag columns column - (itemsOf columns 0).length))
  | nameless {i : Nat} (hname : (itemsOf columns 0)[i]? = some "") :
      Lost tag columns (.emptyName tag i)
  | untyped {i : Nat} {row : Row} (htag : tag = .legacyVars) (hrow : rowAt? columns i = some row)
      (htype : row.entry 1 = none) : Lost tag columns (.incompleteRow tag i)

/-- The texts of the columns of a section, the first one without the tag. -/
def columnTexts (s : Segment) : List (List Char) :=
  (s.columns.modifyHead Segment.withoutTag).map Segment.text

def readInto (table : DefaultTable) (tag : Tag) (index : Nat) (s : Segment) (r : ClassRecord)
    (ds : List Diagnostic) : ClassRecord × List Diagnostic :=
  let content := read table tag s
  ({ r with toMembers := r.toMembers ++ content.members },
    ds ++ content.omissions.map (⟨index, ·⟩))

section Members

theorem rowAt?_eq (columns : List (List Char)) (i : Nat) :
    rowAt? columns i = (cell (itemsOf columns 0) i).map fun name =>
      { name
        entry := fun column => cell (itemsOf columns column) i
        group := fun column => group (groupsOf columns column) i } :=
  rfl

theorem namedRows_eq_filterMap {α : Type} (names : List String) (member : Nat → String → α) :
    namedRows names member =
      (List.range names.length).filterMap fun i => (cell names i).map (member i) := by
  induction names using List.reverseRecOn with
  | nil => rfl
  | append_singleton names n ih =>
    have hbefore : (List.range names.length).filterMap
        (fun i => (cell (names ++ [n]) i).map (member i)) = namedRows names member := by
      rw [ih]
      refine List.filterMap_congr fun i hi => ?_
      rw [cell, cell, List.getElem?_append_left (List.mem_range.mp hi)]
    have hlast : (cell (names ++ [n]) names.length).map (member names.length) =
        if n = "" then none else some (member names.length n) := by
      by_cases hn : n = "" <;> simp [cell, hn]
    rw [List.length_append, List.length_singleton, List.range_succ, List.filterMap_append, hbefore,
      namedRows, List.zipIdx_append, List.filterMap_append]
    refine congrArg (names.zipIdx.filterMap _ ++ ·) ?_
    simp only [List.zipIdx_singleton, Nat.zero_add, List.filterMap_cons, List.filterMap_nil, hlast]

variable {columns : List (List Char)}

theorem namedRows_eq_map {α : Type} {member : Nat → String → α} {made : Row → α}
    (h : ∀ i row, rowAt? columns i = some row → member i row.name = made row) :
    namedRows (itemsOf columns 0) member = (rowsOf columns).map made := by
  rw [namedRows_eq_filterMap, rowsOf, List.map_filterMap]
  refine List.filterMap_congr fun i _ => ?_
  cases hname : cell (itemsOf columns 0) i with
  | none => simp [rowAt?_eq, hname]
  | some name =>
    have hrow := h i _ (by rw [rowAt?_eq, hname]; rfl)
    simp [rowAt?_eq, hname, hrow]

theorem entry_of_rowAt? {i : Nat} {row : Row} (h : rowAt? columns i = some row) (column : Nat) :
    row.entry column = cell (itemsOf columns column) i ∧
      row.group column = group (groupsOf columns column) i := by
  obtain ⟨name, -, rfl⟩ := Option.map_eq_some_iff.mp h
  exact ⟨rfl, rfl⟩

/-- The members that are read from a section are those that its rows add. -/
theorem addTo_ofTexts (table : DefaultTable) {tag : Tag} (htag : tag ≠ .enumeration)
    (r : ClassRecord) :
    { r with toMembers := r.toMembers ++ (ofTexts table tag columns).members } =
      extend table tag (rowsOf columns) r := by
  have htype : ∀ untyped i row, rowAt? columns i = some row →
      (cell (itemsOf columns 1) i).getD untyped = row.type untyped := fun untyped i row hrow => by
    rw [Row.type, (entry_of_rowAt? hrow 1).1]
  have hvalue : ∀ untyped i row, rowAt? columns i = some row →
      (cell (itemsOf columns 2) i).getD (table.literal (row.type untyped)) =
        row.value table untyped := fun untyped i row hrow => by
    rw [Row.value, (entry_of_rowAt? hrow 2).1]
  have hproperties : ∀ untyped, properties table untyped (itemsOf columns 0) (itemsOf columns 1)
      (itemsOf columns 2) = (rowsOf columns).map (Row.property table untyped) := fun untyped =>
    namedRows_eq_map fun i row hrow => by
      simp only [Row.property, htype untyped i row hrow, hvalue untyped i row hrow]
  cases tag with
  | enumeration => exact absurd rfl htag
  | header => simp [ofTexts_eq, extend]
  | legacyVars =>
    have hrows : namedRows (itemsOf columns 0) (fun i name =>
        (cell (itemsOf columns 1) i).map fun type =>
          (⟨name, type, some (table.literal type)⟩ : Property)) =
        (rowsOf columns).map (Row.legacyVar? table) := namedRows_eq_map fun i row hrow => by
      rw [Row.legacyVar?, (entry_of_rowAt? hrow 1).1]
    simp [ofTexts_eq, extend, legacyVars, hrows, reduceOption_eq_filterMap, List.filterMap_map,
      Members.append_def, Members.append]
  | signals =>
    have hmembers : (signals (itemsOf columns 0) (groupsOf columns 1)).members =
        { signals := (rowsOf columns).map fun row => ⟨row.name, row.group 1⟩ } := by
      refine congrArg (fun l => ({ signals := l } : Members)) (namedRows_eq_map fun i row hrow => ?_)
      rw [(entry_of_rowAt? hrow 1).2]
    simp [ofTexts_eq, extend, hmembers, Members.append_def, Members.append]
  | functions =>
    have hmembers : (functions (itemsOf columns 0) (itemsOf columns 1)
        (groupsOf columns 2)).members =
        { functions := (rowsOf columns).map fun row =>
            ⟨row.name, row.group 2, row.type "void", some ("# Implement " ++ row.name)⟩ } := by
      refine congrArg (fun l => ({ functions := l } : Members))
        (namedRows_eq_map fun i row hrow => ?_)
      rw [(entry_of_rowAt? hrow 2).2, htype "void" i row hrow]
      rfl
    simp [ofTexts_eq, extend, hmembers, Members.append_def, Members.append]
  | constants =>
    have hmembers : (constants table (itemsOf columns 0) (itemsOf columns 1)
        (itemsOf columns 2)).members =
        { constants := (rowsOf columns).map fun row =>
            ⟨row.name, row.type "var", row.value table "var"⟩ } := by
      refine congrArg (fun l => ({ constants := l } : Members))
        (namedRows_eq_map fun i row hrow => ?_)
      simp only [htype "var" i row hrow, hvalue "var" i row hrow]
    simp [ofTexts_eq, extend, hmembers, Members.append_def, Members.append]
  | interfaceProps =>
    have hmembers : (interfaceProps (itemsOf columns 0) (itemsOf columns 1)
        (itemsOf columns 2)).members =
        { interfaceProps := (rowsOf columns).map fun row =>
            ⟨row.name, row.type "var", row.entry 2⟩ } := by
      refine congrArg (fun l => ({ interfaceProps := l } : Members))
        (namedRows_eq_map fun i row hrow => ?_)
      rw [(entry_of_rowAt? hrow 2).1, htype "var" i row hrow]
    simp [ofTexts_eq, extend, hmembers, Members.append_def, Members.append]
  | components =>
    have hmembers : (components (itemsOf columns 0) (itemsOf columns 1)).members =
        { components := (rowsOf columns).map fun row => ⟨row.name, row.type "Component"⟩ } := by
      refine congrArg (fun l => ({ components := l } : Members))
        (namedRows_eq_map fun i row hrow => ?_)
      rw [htype "Component" i row hrow]
    simp [ofTexts_eq, extend, hmembers, Members.append_def, Members.append]
  | flags | currentProps | uniqueProps =>
    simp [ofTexts_eq, extend, hproperties, Members.append_def, Members.append]

end Members

section Omissions

variable {tag : Tag} {names types : List String} {lengths : List Nat} {o : Omission}

theorem mem_surplus {column entries n : Nat} :
    o ∈ surplus tag column entries n ↔
      n < entries ∧ o = .surplusValues tag column (entries - n) := by
  by_cases h : n < entries <;> simp [surplus, h]

theorem nodup_surplus {column entries n : Nat} : (surplus tag column entries n).Nodup := by
  unfold surplus
  split <;> simp

theorem mem_namelessRows :
    o ∈ namelessRows tag names ↔ ∃ i, names[i]? = some "" ∧ o = .emptyName tag i := by
  simp only [namelessRows, List.mem_filterMap, Prod.exists, List.mem_zipIdx_iff_getElem?]
  constructor
  · rintro ⟨name, i, hi, hrow⟩
    by_cases hname : name = ""
    · subst hname
      exact ⟨i, hi, by simpa [eq_comm] using hrow⟩
    · simp [hname] at hrow
  · rintro ⟨i, hi, rfl⟩
    exact ⟨"", i, hi, rfl⟩

/-- A table reports its long columns and its rows without a name. -/
theorem mem_tableOmissions :
    o ∈ tableOmissions tag names lengths ↔
      (∃ i entries, lengths[i]? = some entries ∧ names.length < entries ∧
        o = .surplusValues tag (i + 1) (entries - names.length)) ∨
      ∃ i, names[i]? = some "" ∧ o = .emptyName tag i := by
  rw [tableOmissions, List.mem_append, mem_namelessRows]
  refine or_congr ?_ Iff.rfl
  simp only [List.mem_flatMap, Prod.exists, mem_surplus, List.mem_zipIdx_iff_le_and_getElem?_sub]
  constructor
  · rintro ⟨entries, column, ⟨hcolumn, hentries⟩, hlong, rfl⟩
    exact ⟨column - 1, entries, hentries, hlong, by rw [Nat.sub_add_cancel hcolumn]⟩
  · rintro ⟨i, entries, hentries, hlong, rfl⟩
    exact ⟨entries, i + 1, ⟨by omega, by simpa using hentries⟩, hlong, rfl⟩

theorem pairwise_zipIdx {α : Type} (l : List α) (start : Nat) :
    (l.zipIdx start).Pairwise fun a b => a.2 ≠ b.2 := by
  have hnumbers : ((l.zipIdx start).map Prod.snd).Nodup := by
    rw [List.zipIdx_map_snd]
    exact List.nodup_range'
  exact List.pairwise_map.mp hnumbers

theorem nodup_tableOmissions : (tableOmissions tag names lengths).Nodup := by
  refine List.pairwise_append.mpr ⟨List.pairwise_flatMap.mpr ⟨?_, ?_⟩, ?_, ?_⟩
  · rintro ⟨entries, column⟩ -
    exact nodup_surplus
  · refine (pairwise_zipIdx lengths 1).imp fun {a b} hne o ho o' ho' => ?_
    obtain ⟨-, rfl⟩ := mem_surplus.mp ho
    obtain ⟨-, rfl⟩ := mem_surplus.mp ho'
    simp [hne]
  · refine (pairwise_zipIdx names 0).filterMap _ fun a b hne o ho o' ho' => ?_
    by_cases ha : a.1 = "" <;> by_cases hb : b.1 = "" <;> simp_all
    rw [← ho, ← ho']
    simp [hne]
  · intro o ho o' ho'
    obtain ⟨i, -, rfl⟩ := mem_namelessRows.mp ho'
    obtain ⟨column, -, hcolumn⟩ := List.mem_flatMap.mp ho
    obtain ⟨-, rfl⟩ := mem_surplus.mp hcolumn
    simp

def untypedRows (names types : List String) : List Omission :=
  (List.range names.length).filterMap fun i =>
    if (cell names i).isSome ∧ cell types i = none then some (.incompleteRow .legacyVars i)
    else none

theorem reduceOption_untypedRows (names types : List String) :
    (namedRows names fun i _ => if (cell types i).isNone then
        some (Omission.incompleteRow .legacyVars i) else none).reduceOption =
      untypedRows names types := by
  rw [namedRows_eq_filterMap, reduceOption_eq_filterMap, List.filterMap_filterMap]
  refine List.filterMap_congr fun i _ => ?_
  cases cell names i <;> simp [Option.isNone_iff_eq_none]

theorem mem_untypedRows :
    o ∈ untypedRows names types ↔
      ∃ i, (cell names i).isSome ∧ cell types i = none ∧ o = .incompleteRow .legacyVars i := by
  simp only [untypedRows, List.mem_filterMap, List.mem_range, Option.ite_none_right_eq_some,
    Option.some.injEq]
  constructor
  · rintro ⟨i, -, ⟨hname, htype⟩, rfl⟩
    exact ⟨i, hname, htype, rfl⟩
  · rintro ⟨i, hname, htype, rfl⟩
    obtain ⟨name, hcell⟩ := Option.isSome_iff_exists.mp hname
    exact ⟨i, lt_of_cell hcell, ⟨hname, htype⟩, rfl⟩

theorem nodup_untypedRows : (untypedRows names types).Nodup := by
  refine List.Nodup.filterMap (fun i j o hi hj => ?_) List.nodup_range
  simp only [Option.mem_def, Option.ite_none_right_eq_some, Option.some.injEq] at hi hj
  have hrows : Omission.incompleteRow .legacyVars i = .incompleteRow .legacyVars j :=
    hi.2.trans hj.2.symm
  simpa using hrows

end Omissions

section Account

variable {columns : List (List Char)} {tag : Tag}

def lengthsOf (tag : Tag) (columns : List (List Char)) : List Nat :=
  (List.range (tag.columnsRead - 1)).map fun i => lengthAt tag columns (i + 1)

theorem getElem?_lengthsOf {i entries : Nat} :
    (lengthsOf tag columns)[i]? = some entries ↔
      i + 1 < tag.columnsRead ∧ lengthAt tag columns (i + 1) = entries := by
  rw [lengthsOf, List.getElem?_map]
  by_cases hi : i < tag.columnsRead - 1
  · rw [List.getElem?_range hi]
    simp [Nat.add_lt_of_lt_sub hi]
  · rw [List.getElem?_eq_none (by simpa using hi)]
    simp [show ¬i + 1 < tag.columnsRead by omega]

variable (hheader : tag ≠ .header) (henum : tag ≠ .enumeration)

include hheader henum

theorem omissions_ofTexts (table : DefaultTable) :
    (ofTexts table tag columns).omissions =
      tableOmissions tag (itemsOf columns 0) (lengthsOf tag columns) ++
        if tag = .legacyVars then untypedRows (itemsOf columns 0) (itemsOf columns 1) else [] := by
  cases tag with
  | header => exact absurd rfl hheader
  | enumeration => exact absurd rfl henum
  | legacyVars =>
    rw [if_pos rfl, ← reduceOption_untypedRows, ofTexts_eq]
    rfl
  | _ =>
    rw [if_neg (by decide), List.append_nil, ofTexts_eq]
    rfl

theorem mem_omissions_iff (table : DefaultTable) (o : Omission) :
    o ∈ (ofTexts table tag columns).omissions ↔ Lost tag columns o := by
  rw [omissions_ofTexts hheader henum, List.mem_append, mem_tableOmissions]
  constructor
  · rintro ((⟨i, entries, hentries, hlong, rfl⟩ | ⟨i, hname, rfl⟩) | huntyped)
    · obtain ⟨hread, rfl⟩ := getElem?_lengthsOf.mp hentries
      exact .surplus ⟨by omega, hread⟩ hlong
    · exact .nameless hname
    · by_cases htag : tag = .legacyVars
      · rw [if_pos htag] at huntyped
        obtain ⟨i, hname, htype, rfl⟩ := mem_untypedRows.mp huntyped
        obtain ⟨name, hcell⟩ := Option.isSome_iff_exists.mp hname
        exact htag ▸ .untyped htag (by rw [rowAt?_eq, hcell]; rfl) htype
      · simp [htag] at huntyped
  · rintro (⟨⟨hpos, hread⟩, hlong⟩ | ⟨hname⟩ | ⟨htag, hrow, htype⟩)
    · rename_i column
      refine .inl (.inl ⟨column - 1, _, getElem?_lengthsOf.mpr ⟨by omega, rfl⟩, ?_, ?_⟩) <;>
        rw [Nat.sub_add_cancel hpos]
      exact hlong
    · exact .inl (.inr ⟨_, hname, rfl⟩)
    · subst htag
      rw [(entry_of_rowAt? hrow 1).1] at htype
      rw [rowAt?_eq] at hrow
      obtain ⟨name, hcell, -⟩ := Option.map_eq_some_iff.mp hrow
      exact .inr (mem_untypedRows.mpr ⟨_, by rw [hcell, Option.isSome_some], htype, rfl⟩)

theorem nodup_omissions (table : DefaultTable) :
    (ofTexts table tag columns).omissions.Nodup := by
  rw [omissions_ofTexts hheader henum]
  refine List.pairwise_append.mpr ⟨nodup_tableOmissions, ?_, fun o ho o' ho' => ?_⟩
  · split
    · exact nodup_untypedRows
    · exact .nil
  · rintro rfl
    split at ho'
    · obtain ⟨i, -, -, rfl⟩ := mem_untypedRows.mp ho'
      simp [mem_tableOmissions] at ho
    · simp at ho'

omit hheader henum

theorem ofColumns_eq_ofTexts (table : DefaultTable) (tag : Tag) {s : Segment} (hs : s.Lexed) :
    ofColumns table tag (s.columns.modifyHead Segment.withoutTag) =
      ofTexts table tag (columnTexts s) := by
  have hlexed : ∀ c ∈ s.columns.modifyHead Segment.withoutTag, c.Lexed := by
    have hcolumns : ∀ c ∈ s.columns, c.Lexed := fun c hc => hs.of_mem_cut hc
    cases h : s.columns with
    | nil => simp
    | cons first others =>
      rw [h, List.forall_mem_cons] at hcolumns
      exact List.forall_mem_cons.mpr ⟨hcolumns.1.withoutTag, hcolumns.2⟩
  refine ofColumns_congr ?_
  rw [columnTexts, List.map_map, List.map_map]
  exact List.map_congr_left fun c hc => (hlexed c hc).lex_text.symm

/-- A section that has the columns its tag needs adds one member for each row with a name, and for a
legacy section with a type, in the order of the rows and behind the members that are there. The
member is made of the entries in its row, with the substitutes of the tag where these are missing or
empty. Nothing else in the record changes. Each column that is longer than the names, each row
without a name and each legacy row without a type is reported once, and nothing else is. -/
theorem readInto_rows (table : DefaultTable) {tag : Tag} (hheader : tag ≠ .header)
    (henum : tag ≠ .enumeration) (index : Nat) {source : List Char} {s : Segment}
    (hs : Segment.Reached source s) (hcolumns : tag.columnsNeeded ≤ s.columns.length)
    (r : ClassRecord) (ds : List Diagnostic) :
    ∃ lost : List Omission,
      readInto table tag index s r ds =
          (extend table tag (rowsOf (columnTexts s)) r, ds ++ lost.map (⟨index, ·⟩)) ∧
        lost.Nodup ∧ ∀ o, o ∈ lost ↔ Lost tag (columnTexts s) o := by
  have hread : read table tag s = ofTexts table tag (columnTexts s) := by
    rw [← ofColumns_eq_ofTexts table tag hs.lexed]
    exact if_neg (by omega)
  refine ⟨(ofTexts table tag (columnTexts s)).omissions, ?_,
    nodup_omissions hheader henum table, mem_omissions_iff hheader henum table⟩
  rw [readInto, hread, ← addTo_ofTexts table henum]

/-- Of four legacy rows one lacks its name and one its type, and there is one type too many. Of four
functions one lacks its name, one its parameters and all but one their result, and there is one group
of parameters too many. -/
theorem readInto_rows_ragged :
    let source := "cv'a, ,b,c''int,x,,d,e;fn'f,,g,h''int,,''x, ,y||z||v".toList
    let vars : Segment := ⟨0, Token.lex "cv'a, ,b,c''int,x,,d,e".toList⟩
    let funs : Segment := ⟨23, Token.lex "fn'f,,g,h''int,,''x, ,y||z||v".toList⟩
    let r : ClassRecord := { id := "k", name := "K", uniqueProps := [⟨"z", "var", none⟩] }
    vars ∈ Segment.sections source ∧ funs ∈ Segment.sections source ∧
      (∃ lost : List Omission,
        readInto .engine .legacyVars 3 vars r [] =
            ({ r with uniqueProps :=
                [⟨"z", "var", none⟩, ⟨"a", "int", some "0"⟩, ⟨"c", "d", some "null"⟩] },
              lost.map (⟨3, ·⟩)) ∧
          lost.Nodup ∧
          Omission.emptyName .legacyVars 1 ∈ lost ∧ Omission.incompleteRow .legacyVars 2 ∈ lost ∧
            Omission.surplusValues .legacyVars 1 1 ∈ lost) ∧
      ∃ lost : List Omission,
        readInto .engine .functions 4 funs r [] =
            ({ r with functions :=
                [⟨"f", ["x", "y"], "int", some "# Implement f"⟩,
                  ⟨"g", ["z"], "void", some "# Implement g"⟩,
                  ⟨"h", [], "void", some "# Implement h"⟩] },
              lost.map (⟨4, ·⟩)) ∧
          lost.Nodup ∧
          Omission.emptyName .functions 1 ∈ lost ∧ Omission.surplusValues .functions 2 1 ∈ lost := by
  intro source vars funs r
  have hvars : vars ∈ Segment.sections source := by decide +kernel
  have hfuns : funs ∈ Segment.sections source := by decide +kernel
  refine ⟨hvars, hfuns, ?_, ?_⟩
  · obtain ⟨lost, hread, hnodup, hlost⟩ := @readInto_rows .engine .legacyVars (by decide)
      (by decide) 3 _ _ (Segment.Reached.whole.cut hvars) (by decide +kernel) r []
    have hprops : (extend .engine .legacyVars (rowsOf (columnTexts vars)) r).uniqueProps =
        [⟨"z", "var", none⟩, ⟨"a", "int", some "0"⟩, ⟨"c", "d", some "null"⟩] := by decide +kernel
    refine ⟨lost, ?_, hnodup, (hlost _).mpr ?_, (hlost _).mpr ?_, (hlost _).mpr ?_⟩
    · rw [hread, ← hprops, List.nil_append]
      rfl
    · exact .nameless (by decide +kernel)
    · exact .untyped rfl rfl (by decide +kernel)
    · exact .surplus (by decide) (by decide +kernel)
  · obtain ⟨lost, hread, hnodup, hlost⟩ := @readInto_rows .engine .functions (by decide)
      (by decide) 4 _ _ (Segment.Reached.whole.cut hfuns) (by decide +kernel) r []
    have hfunctions : (extend .engine .functions (rowsOf (columnTexts funs)) r).functions =
        [⟨"f", ["x", "y"], "int", some "# Implement f"⟩,
          ⟨"g", ["z"], "void", some "# Implement g"⟩,
          ⟨"h", [], "void", some "# Implement h"⟩] := by decide +kernel
    refine ⟨lost, ?_, hnodup, (hlost _).mpr ?_, (hlost _).mpr ?_⟩
    · rw [hread, ← hfunctions, List.nil_append]
      rfl
    · exact .nameless (by decide +kernel)
    · exact .surplus (by decide) (by decide +kernel)

end Account

end Section

namespace Description

def Part.readInto (p : Part) (index : Nat) (r : ClassRecord) (ds : List Diagnostic) :
    ClassRecord × List Diagnostic :=
  ({ r with toMembers := r.toMembers ++ p.members }, ds ++ p.omissions.map (⟨index, ·⟩))

theorem Part.readInto_content (table : DefaultTable) (tag : Tag) (index : Nat) (s : Segment)
    (r : ClassRecord) (ds : List Diagnostic) :
    (content (Section.read table tag s)).readInto index r ds =
      Section.readInto table tag index s r ds :=
  rfl

theorem foldl_readInto (ps : List Part) (start : Nat) (r : ClassRecord) (ds : List Diagnostic) :
    (ps.zipIdx start).foldl (fun state part => part.1.readInto part.2 state.1 state.2) (r, ds) =
      ({ r with toMembers := r.toMembers ++ membersOf ps },
        ds ++ (ps.zipIdx start).flatMap fun part => part.1.omissions.map (⟨part.2, ·⟩)) := by
  induction ps generalizing start r ds with
  | nil => simp [membersOf]
  | cons p ps ih =>
    rw [List.zipIdx_cons, List.foldl_cons, Part.readInto, ih]
    simp [membersOf, Members.append_assoc]

/-- Parsing reads the sections into an empty record, one after the other, and then the header. -/
theorem parse_eq_foldl {table : DefaultTable} {id s : String} {p : Parsed}
    (h : parse table id s = .ok p) :
    ∃ header : Header,
      let state := (parts table s.toList).zipIdx.foldl
        (fun state part => part.1.readInto part.2 state.1 state.2) ({ id, name := "" }, [])
      p = ⟨header.applyTo state.1, state.2⟩ := by
  obtain ⟨t, index, -, -, rfl⟩ := exists_headerSection_of_parse h
  refine ⟨Part.headerOf t, ?_⟩
  rw [foldl_readInto]
  simp [diagnosticsOf]

end Description

end Blueprint
