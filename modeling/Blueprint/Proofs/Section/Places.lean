import Blueprint.Proofs.Description.Parts
import Blueprint.Proofs.Section.Rows

/-!
# Where the entries of a section go

What a column says of a row has its place in the member that is made of the row. A section without
omissions has a name for each row and no column longer than the names, so nothing is lost of the
columns that its tag reads. Columns behind these are not looked at, and nothing is said about them.
-/

namespace Blueprint

section Texts

/-- The texts of a signal, in the order of the columns it is written in. -/
def Signal.columns (s : Signal) : List (List String) :=
  [[s.name], s.params]

def Constant.columns (c : Constant) : List (List String) :=
  [[c.name], [c.type], [c.value]]

def Enumeration.columns (e : Enumeration) : List (List String) :=
  [[e.name], e.values]

def Property.columns (p : Property) : List (List String) :=
  [[p.name], [p.type], p.default.toList]

/-- The body stands behind the columns, since no section writes it. -/
def Function.columns (f : Function) : List (List String) :=
  [[f.name], [f.returnType], f.params, f.body.toList]

def Component.columns (c : Component) : List (List String) :=
  [[c.name], [c.type]]

def Header.columns (h : Header) : List (List String) :=
  [[h.name], h.parent.toList, h.interfaces]

def Members.rows (m : Members) : List (List (List String)) :=
  m.signals.map Signal.columns ++ m.constants.map Constant.columns ++
    m.enums.map Enumeration.columns ++ m.allProperties.map Property.columns ++
    m.functions.map Function.columns ++ m.components.map Component.columns

namespace Members

theorem rows_signals (l : List Signal) :
    ({ signals := l } : Members).rows = l.map Signal.columns := by
  simp [rows, allProperties, PropertyGroup.all, properties]

theorem rows_constants (l : List Constant) :
    ({ constants := l } : Members).rows = l.map Constant.columns := by
  simp [rows, allProperties, PropertyGroup.all, properties]

theorem rows_enums (l : List Enumeration) :
    ({ enums := l } : Members).rows = l.map Enumeration.columns := by
  simp [rows, allProperties, PropertyGroup.all, properties]

theorem rows_properties (group : PropertyGroup) (l : List Property) :
    (({} : Members).withProperties group l).rows = l.map Property.columns := by
  cases group <;> simp [rows, allProperties, PropertyGroup.all, properties, withProperties]

theorem rows_functions (l : List Function) :
    ({ functions := l } : Members).rows = l.map Function.columns := by
  simp [rows, allProperties, PropertyGroup.all, properties]

theorem rows_components (l : List Component) :
    ({ components := l } : Members).rows = l.map Component.columns := by
  simp [rows, allProperties, PropertyGroup.all, properties]

end Members

def Placed (rows : List (List (List String))) (column row : Nat) (text : String) : Prop :=
  ∃ columns ∈ rows[row]?, ∃ texts ∈ columns[column]?, text ∈ texts

theorem Placed.mem {rows : List (List (List String))} {column row : Nat} {text : String}
    (h : Placed rows column row text) : text ∈ rows.flatten.flatten := by
  obtain ⟨columns, hcolumns, texts, htexts, htext⟩ := h
  exact List.mem_flatten_of_mem (List.mem_flatten_of_mem (List.mem_of_getElem? hcolumns)
    (List.mem_of_getElem? htexts)) htext

end Texts

/-- How the texts of a column belong to rows. -/
inductive Arrangement where
  /-- The column is one text of one row. -/
  | single
  /-- All entries belong to one row. -/
  | list
  /-- Each entry is the text of a row. -/
  | entries
  /-- The entries between two bars belong to a row. -/
  | groups

def Arrangement.rows : Arrangement → List Char → List (List String)
  | single, column => [[String.ofList (Text.trim column)]]
  | list, column => [Text.items column]
  | entries, column => (Text.items column).map ([·])
  | groups, column => Text.groups column

namespace Tag

/-- The columns that are looked at when there are enough of them. -/
def columnsRead : Tag → Nat
  | legacyVars | signals | enumeration | components => 2
  | header | functions | constants | flags | currentProps | interfaceProps | uniqueProps => 3

theorem columnsNeeded_le_columnsRead (tag : Tag) : tag.columnsNeeded ≤ tag.columnsRead := by
  cases tag <;> decide

/-- How a column of a section is written. The name of an enumeration may hold commas. -/
def arrangement (tag : Tag) (column : Nat) : Arrangement :=
  match tag, column with
  | header, 2 | enumeration, 1 => .list
  | header, _ | enumeration, 0 => .single
  | signals, 1 | functions, 2 => .groups
  | _, _ => .entries

end Tag

namespace Section

/-- The text is written in this column for a row, and is not empty. -/
def Written (tag : Tag) (columns : List (List Char)) (column row : Nat) (text : String) : Prop :=
  text ≠ "" ∧ ∃ c ∈ columns[column]?, ∃ texts ∈ ((tag.arrangement column).rows c)[row]?, text ∈ texts

variable {table : DefaultTable} {tag : Tag} {columns : List (List Char)} {column row : Nat}
  {text : String}

section Cells

theorem Written.cell_eq (h : Written tag columns column row text)
    (harrangement : tag.arrangement column = .entries) :
    cell (itemsOf columns column) row = some text := by
  obtain ⟨hne, c, hc, texts, htexts, htext⟩ := h
  rw [harrangement, Arrangement.rows, Option.mem_def, List.getElem?_map] at htexts
  obtain ⟨item, hitem, rfl⟩ := Option.map_eq_some_iff.mp htexts
  obtain rfl := List.mem_singleton.mp htext
  simp [cell, itemsOf, Option.mem_def.mp hc, hitem, hne]

theorem Written.mem_group (h : Written tag columns column row text)
    (harrangement : tag.arrangement column = .groups) :
    text ∈ group (groupsOf columns column) row := by
  obtain ⟨-, c, hc, texts, htexts, htext⟩ := h
  rw [harrangement, Arrangement.rows, Option.mem_def] at htexts
  simpa [group, groupsOf, Option.mem_def.mp hc, htexts] using htext

theorem Written.trim_eq (h : Written tag columns column row text)
    (harrangement : tag.arrangement column = .single) :
    row = 0 ∧ columns[column]?.map (fun c => String.ofList (Text.trim c)) = some text := by
  obtain ⟨-, c, hc, texts, htexts, htext⟩ := h
  rw [harrangement, Arrangement.rows, List.getElem?_singleton, Option.mem_def] at htexts
  obtain ⟨rfl, rfl⟩ : row = 0 ∧ [String.ofList (Text.trim c)] = texts := by simpa using htexts
  obtain rfl := List.mem_singleton.mp htext
  exact ⟨rfl, by rw [Option.mem_def.mp hc, Option.map_some]⟩

theorem Written.mem_items (h : Written tag columns column row text)
    (harrangement : tag.arrangement column = .list) :
    row = 0 ∧ text ∈ itemsOf columns column := by
  obtain ⟨-, c, hc, texts, htexts, htext⟩ := h
  rw [harrangement, Arrangement.rows, List.getElem?_singleton, Option.mem_def] at htexts
  obtain ⟨rfl, rfl⟩ : row = 0 ∧ Text.items c = texts := by simpa using htexts
  exact ⟨rfl, by simpa [itemsOf, Option.mem_def.mp hc] using htext⟩

theorem getElem?_of_cell {entries : List String} (h : cell entries row = some text) :
    entries[row]? = some text := by
  have hrow : entries[row]? = some text ∧ text ≠ "" := by simpa [cell] using h
  exact hrow.1

theorem lt_of_cell {entries : List String} (h : cell entries row = some text) :
    row < entries.length :=
  (List.getElem?_eq_some_iff.mp (getElem?_of_cell h)).1

theorem lt_of_mem_group {groups : List (List String)} (h : text ∈ group groups row) :
    row < groups.length := by
  by_contra hlt
  simp [group, List.getElem?_eq_none (Nat.not_lt.mp hlt)] at h

end Cells

section Rows

variable {names : List String} {fields : Nat → String → List (List String)}
  (hnames : ∀ n ∈ names, n ≠ "")

include hnames

theorem placed_namedRows (hrow : row < names.length)
    (hfield : ∀ n, names[row]? = some n → ∃ texts ∈ (fields row n)[column]?, text ∈ texts) :
    Placed (namedRows names fields) column row text := by
  have hname : names[row]? = some names[row] := List.getElem?_eq_getElem hrow
  refine ⟨fields row names[row], ?_, hfield _ hname⟩
  rw [Option.mem_def, getElem?_namedRows hnames, hname, Option.map_some]

theorem placed_name (h : cell names row = some text) (hfield : ∀ n, (fields row n)[0]? = some [n]) :
    Placed (namedRows names fields) 0 row text := by
  refine placed_namedRows hnames (lt_of_cell h) fun n hn => ⟨[n], hfield n, ?_⟩
  rw [getElem?_of_cell h] at hn
  simpa using hn

/-- A column of entries that is not longer than the names has all of them in its rows. -/
theorem placed_cell {entries : List String} (hlength : entries.length ≤ names.length)
    (h : cell entries row = some text)
    (hfield : ∀ n, ∃ texts ∈ (fields row n)[column]?, ∀ e ∈ cell entries row, e ∈ texts) :
    Placed (namedRows names fields) column row text := by
  refine placed_namedRows hnames ((lt_of_cell h).trans_le hlength) fun n _ => ?_
  obtain ⟨texts, htexts, hcell⟩ := hfield n
  exact ⟨texts, htexts, hcell text h⟩

theorem placed_group {groups : List (List String)} (hlength : groups.length ≤ names.length)
    (h : text ∈ group groups row)
    (hfield : ∀ n, (fields row n)[column]? = some (group groups row)) :
    Placed (namedRows names fields) column row text :=
  placed_namedRows hnames ((lt_of_mem_group h).trans_le hlength) fun n _ => ⟨_, hfield n, h⟩

end Rows

section Tables

theorem placed_of_typed {lengths : List Nat}
    (h : tableOmissions tag (itemsOf columns 0) lengths = [])
    (htypes : (itemsOf columns 1).length ∈ lengths) (untyped : String)
    (others : Nat → String → List (List String)) (hcolumn : column < 2)
    (harrangement : tag.arrangement column = .entries)
    (hw : Written tag columns column row text) :
    Placed (namedRows (itemsOf columns 0) fun row n =>
      [n] :: [(cell (itemsOf columns 1) row).getD untyped] :: others row n) column row text := by
  have hnames := name_ne_of_tableOmissions h
  have hcell := hw.cell_eq harrangement
  match column, hcolumn with
  | 0, _ => exact placed_name hnames hcell fun _ => rfl
  | 1, _ =>
    refine placed_cell hnames (length_le_of_tableOmissions h _ htypes) hcell
      fun n => ⟨_, rfl, fun e he => ?_⟩
    simp [Option.mem_def.mp he]

/-- Names, types and values have their places if a value that is written is put into its row. -/
theorem placed_of_valued
    (h : tableOmissions tag (itemsOf columns 0)
      [(itemsOf columns 1).length, (itemsOf columns 2).length] = [])
    (untyped : String) {values : Nat → String → List String}
    (hvalues : ∀ row n, ∀ e ∈ cell (itemsOf columns 2) row, e ∈ values row n) (hcolumn : column < 3)
    (harrangement : tag.arrangement column = .entries)
    (hw : Written tag columns column row text) :
    Placed (namedRows (itemsOf columns 0) fun row n =>
      [[n], [(cell (itemsOf columns 1) row).getD untyped], values row n]) column row text := by
  match column, hcolumn with
  | 0, _ | 1, _ => exact placed_of_typed h (by simp) untyped _ (by omega) harrangement hw
  | 2, _ =>
    exact placed_cell (name_ne_of_tableOmissions h) (length_le_of_tableOmissions h _ (by simp))
      (hw.cell_eq harrangement) fun n => ⟨_, rfl, hvalues row n⟩

theorem placed_legacyVars
    (h : (legacyVars table (itemsOf columns 0) (itemsOf columns 1)).omissions = [])
    (hcolumn : column < 2) (hw : Written .legacyVars columns column row text) :
    Placed (legacyVars table (itemsOf columns 0) (itemsOf columns 1)).members.rows column row
      text := by
  obtain ⟨htable, hincomplete⟩ := List.append_eq_nil_iff.mp h
  -- A row without a type would have been reported, so none is left out.
  have htyped : ∀ row n, (itemsOf columns 0)[row]? = some n →
      (cell (itemsOf columns 1) row).isSome = true := by
    intro row n hn
    have hrow := getElem?_namedRows (name_ne_of_tableOmissions htable) (fun row _ =>
      if (cell (itemsOf columns 1) row).isNone then
        some (Omission.incompleteRow .legacyVars row) else none) row
    rw [hn, Option.map_some] at hrow
    have hnone := List.filterMap_eq_nil_iff.mp hincomplete _ (List.mem_of_getElem? hrow)
    by_contra hmissing
    simp [Option.not_isSome_iff_eq_none.mp hmissing] at hnone
  have hmade : (legacyVars table (itemsOf columns 0) (itemsOf columns 1)).members =
      ({} : Members).withProperties .unique (namedRows (itemsOf columns 0) fun row n =>
        ⟨n, (cell (itemsOf columns 1) row).getD "",
          some (table.literal ((cell (itemsOf columns 1) row).getD ""))⟩) := by
    refine congrArg (fun l => ({ uniqueProps := l } : Members))
      (reduceOption_namedRows fun row n hn => ?_)
    obtain ⟨type, htype⟩ := Option.isSome_iff_exists.mp (htyped row n hn)
    simp [htype]
  rw [hmade, Members.rows_properties, map_namedRows]
  exact placed_of_typed htable (by simp) "" _ hcolumn rfl hw

theorem placed_signals (h : (signals (itemsOf columns 0) (groupsOf columns 1)).omissions = [])
    (hcolumn : column < 2) (hw : Written .signals columns column row text) :
    Placed (signals (itemsOf columns 0) (groupsOf columns 1)).members.rows column row text := by
  have hnames := name_ne_of_tableOmissions h
  rw [signals, Members.rows_signals, map_namedRows]
  match column, hcolumn with
  | 0, _ => exact placed_name hnames (hw.cell_eq rfl) fun _ => rfl
  | 1, _ =>
    exact placed_group hnames (length_le_of_tableOmissions h _ (by simp)) (hw.mem_group rfl)
      fun _ => rfl

theorem placed_functions
    (h : (functions (itemsOf columns 0) (itemsOf columns 1) (groupsOf columns 2)).omissions = [])
    (hcolumn : column < 3) (hw : Written .functions columns column row text) :
    Placed (functions (itemsOf columns 0) (itemsOf columns 1) (groupsOf columns 2)).members.rows
      column row text := by
  rw [functions, Members.rows_functions, map_namedRows]
  match column, hcolumn with
  | 0, _ | 1, _ => exact placed_of_typed h (by simp) "void" _ (by omega) rfl hw
  | 2, _ =>
    exact placed_group (name_ne_of_tableOmissions h) (length_le_of_tableOmissions h _ (by simp))
      (hw.mem_group rfl) fun _ => rfl

theorem placed_constants
    (h : (constants table (itemsOf columns 0) (itemsOf columns 1)
      (itemsOf columns 2)).omissions = [])
    (hcolumn : column < 3) (hw : Written .constants columns column row text) :
    Placed (constants table (itemsOf columns 0) (itemsOf columns 1)
      (itemsOf columns 2)).members.rows column row text := by
  rw [constants, Members.rows_constants, map_namedRows]
  refine placed_of_valued h "var" (fun row n e he => ?_) hcolumn rfl hw
  simp [Option.mem_def.mp he]

theorem placed_properties (group : PropertyGroup) {untyped : String}
    (h : tableOmissions tag (itemsOf columns 0)
      [(itemsOf columns 1).length, (itemsOf columns 2).length] = [])
    (hcolumn : column < 3) (harrangement : tag.arrangement column = .entries)
    (hw : Written tag columns column row text) :
    Placed (({} : Members).withProperties group (properties table untyped (itemsOf columns 0)
      (itemsOf columns 1) (itemsOf columns 2))).rows column row text := by
  rw [properties, Members.rows_properties, map_namedRows]
  refine placed_of_valued h untyped (fun row n e he => ?_) hcolumn harrangement hw
  simp [Option.mem_def.mp he]

theorem placed_interfaceProps
    (h : (interfaceProps (itemsOf columns 0) (itemsOf columns 1)
      (itemsOf columns 2)).omissions = [])
    (hcolumn : column < 3) (hw : Written .interfaceProps columns column row text) :
    Placed (interfaceProps (itemsOf columns 0) (itemsOf columns 1)
      (itemsOf columns 2)).members.rows column row text := by
  have hmade : (interfaceProps (itemsOf columns 0) (itemsOf columns 1)
        (itemsOf columns 2)).members =
      ({} : Members).withProperties .interface (namedRows (itemsOf columns 0) fun row n =>
        ⟨n, (cell (itemsOf columns 1) row).getD "var", cell (itemsOf columns 2) row⟩) := rfl
  rw [hmade, Members.rows_properties, map_namedRows]
  exact placed_of_valued h "var" (fun row n e he => Option.mem_toList.mpr he) hcolumn rfl hw

theorem placed_components
    (h : (components (itemsOf columns 0) (itemsOf columns 1)).omissions = [])
    (hcolumn : column < 2) (hw : Written .components columns column row text) :
    Placed (components (itemsOf columns 0) (itemsOf columns 1)).members.rows column row text := by
  rw [components, Members.rows_components, map_namedRows]
  exact placed_of_typed h (by simp) "Component" (fun _ _ => []) hcolumn rfl hw

theorem placed_enumeration
    (h : (enumeration ((columns[0]?.map fun c => String.ofList (Text.trim c)).getD "")
      (itemsOf columns 1)).omissions = [])
    (hcolumn : column < 2) (hw : Written .enumeration columns column row text) :
    Placed (enumeration ((columns[0]?.map fun c => String.ofList (Text.trim c)).getD "")
      (itemsOf columns 1)).members.rows column row text := by
  simp only [enumeration] at h ⊢
  split at h
  · simp at h
  split at h
  · simp at h
  rename_i hname hvalues
  rw [if_neg hname, if_neg hvalues, Members.rows_enums]
  match column, hcolumn with
  | 0, _ =>
    obtain ⟨rfl, htext⟩ := hw.trim_eq rfl
    exact ⟨_, rfl, _, rfl, by simp [htext]⟩
  | 1, _ =>
    obtain ⟨rfl, htext⟩ := hw.mem_items rfl
    exact ⟨_, rfl, _, rfl, by simp [htext, hw.1]⟩

end Tables

/-- A section without omissions has each text of the columns that its tag reads in its place. -/
theorem placed_ofTexts (h : (ofTexts table tag columns).omissions = []) (htag : tag ≠ .header)
    (hcolumn : column < tag.columnsRead) (hw : Written tag columns column row text) :
    Placed (ofTexts table tag columns).members.rows column row text := by
  rw [ofTexts_eq] at h ⊢
  cases tag with
  | header => exact absurd rfl htag
  | legacyVars => exact placed_legacyVars h hcolumn hw
  | signals => exact placed_signals h hcolumn hw
  | functions => exact placed_functions h hcolumn hw
  | constants => exact placed_constants h hcolumn hw
  | enumeration => exact placed_enumeration h hcolumn hw
  | flags => exact placed_properties .flags h hcolumn rfl hw
  | currentProps => exact placed_properties .current h hcolumn rfl hw
  | uniqueProps => exact placed_properties .unique h hcolumn rfl hw
  | interfaceProps => exact placed_interfaceProps h hcolumn hw
  | components => exact placed_components h hcolumn hw

section Congr

variable {columns' : List (List Char)}

theorem getElem?_of_take {n i : Nat} (h : columns.take n = columns'.take n) (hi : i < n) :
    columns[i]? = columns'[i]? := by
  rw [← List.getElem?_take_of_lt hi, h, List.getElem?_take_of_lt hi]

theorem ofTexts_congr_take (h : columns.take tag.columnsRead = columns'.take tag.columnsRead) :
    ofTexts table tag columns = ofTexts table tag columns' := by
  have hcolumn : ∀ i < tag.columnsRead, columns[i]? = columns'[i]? := fun i => getElem?_of_take h
  rw [ofTexts_eq, ofTexts_eq]
  cases tag <;> simp only [Tag.columnsRead] at hcolumn <;>
    simp [itemsOf, groupsOf, hcolumn 0, hcolumn 1, hcolumn 2]

theorem readText_congr_take {rest rest' : List Char}
    (h : (columnsAfterTag rest).take tag.columnsRead =
      (columnsAfterTag rest').take tag.columnsRead) :
    readText table tag rest = readText table tag rest' := by
  have hlength := congrArg List.length h
  simp only [List.length_take] at hlength
  have hneeded := tag.columnsNeeded_le_columnsRead
  by_cases hshort : (columnsAfterTag rest).length < tag.columnsNeeded
  · have hsame : (columnsAfterTag rest').length = (columnsAfterTag rest).length := by omega
    simp [readText, hsame, hshort]
  · have hlong : ¬(columnsAfterTag rest').length < tag.columnsNeeded := by omega
    rw [readText, readText, if_neg hshort, if_neg hlong, ofTexts_congr_take h]

end Congr

end Section
end Blueprint
