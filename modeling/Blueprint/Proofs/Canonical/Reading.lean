import Blueprint.Proofs.Canonical.Quotes
import Blueprint.Proofs.Canonical.Tables

/-!
# Reading tables back

A table that is written for members gives them back exactly if its columns come apart again. Then
nothing is left out of it either.
-/

namespace Blueprint

namespace Section

variable {literals : DefaultTable}

theorem content_eq {c : Content} {m : Members} (hmembers : c.members = m)
    (homissions : c.omissions = []) : c = { members := m } := by
  cases c
  simp_all

theorem constants_map {cs : List Constant}
    (h : ∀ c ∈ cs, c.name ≠ "" ∧ c.type ≠ "" ∧ c.value ≠ "") :
    constants literals (cs.map (·.name)) (cs.map (·.type)) (cs.map (·.value)) =
      { members := { constants := cs } } := by
  have hname : ∀ n ∈ cs.map (·.name), n ≠ "" := by simpa using fun c hc => (h c hc).1
  refine content_eq (congrArg (fun l => ({ constants := l } : Members))
    (namedRows_map_self (fun c hc => (h c hc).1) fun i c hc => ?_))
    (tableOmissions_eq_nil hname (by simp))
  obtain ⟨-, htype, hvalue⟩ := h c (List.mem_of_getElem? hc)
  simp [cell_map hc htype, cell_map hc hvalue]

theorem signals_map {ss : List Signal} (h : ∀ s ∈ ss, s.name ≠ "") :
    signals (ss.map (·.name)) (ss.map (·.params)) = { members := { signals := ss } } := by
  have hname : ∀ n ∈ ss.map (·.name), n ≠ "" := by simpa using h
  refine content_eq (congrArg (fun l => ({ signals := l } : Members))
    (namedRows_map_self h fun i s hs => ?_)) (tableOmissions_eq_nil hname (by simp))
  simp [group_map hs]

theorem components_map {cs : List Component} (h : ∀ c ∈ cs, c.name ≠ "" ∧ c.type ≠ "") :
    components (cs.map (·.name)) (cs.map (·.type)) = { members := { components := cs } } := by
  have hname : ∀ n ∈ cs.map (·.name), n ≠ "" := by simpa using fun c hc => (h c hc).1
  refine content_eq (congrArg (fun l => ({ components := l } : Members))
    (namedRows_map_self (fun c hc => (h c hc).1) fun i c hc => ?_))
    (tableOmissions_eq_nil hname (by simp))
  simp [cell_map hc (h c (List.mem_of_getElem? hc)).2]

theorem properties_map {untyped : String} {props : List Property}
    (h : ∀ p ∈ props, p.name ≠ "" ∧ p.type ≠ "" ∧ p.default.getD (literals.literal p.type) ≠ "") :
    properties literals untyped (props.map (·.name)) (props.map (·.type))
        (props.map fun p => p.default.getD (literals.literal p.type)) =
      props.map (·.filled literals) := by
  refine namedRows_map (fun p hp => (h p hp).1) fun i p hp => ?_
  obtain ⟨-, htype, hvalue⟩ := h p (List.mem_of_getElem? hp)
  have hcell : cell (props.map fun p => p.default.getD (literals.literal p.type)) i =
      some (p.default.getD (literals.literal p.type)) := cell_map hp hvalue
  simp [cell_map hp htype, hcell, Property.filled]

theorem interfaceProps_map {props : List Property} {values : List String}
    (h : ∀ p ∈ props, p.name ≠ "" ∧ p.type ≠ "" ∧ p.default ≠ some "")
    (hvalues : values = props.map (·.default.getD "") ∨
      values = [] ∧ ∀ p ∈ props, p.default = none) :
    interfaceProps (props.map (·.name)) (props.map (·.type)) values =
      { members := { interfaceProps := props } } := by
  have hname : ∀ n ∈ props.map (·.name), n ≠ "" := by simpa using fun p hp => (h p hp).1
  refine content_eq (congrArg (fun l => ({ interfaceProps := l } : Members))
    (namedRows_map_self (fun p hp => (h p hp).1) fun i p hp => ?_))
    (tableOmissions_eq_nil hname ?_)
  · obtain ⟨-, htype, hdefault⟩ := h p (List.mem_of_getElem? hp)
    have hvalue : cell values i = p.default := by
      rcases hvalues with rfl | ⟨rfl, hnone⟩
      · cases hd : p.default with
        | none => simp [cell, hp, hd]
        | some d =>
          have hne : d ≠ "" := by
            rintro rfl
            exact hdefault hd
          simp [cell, hp, hd, hne]
      · simp [cell, hnone p (List.mem_of_getElem? hp)]
    simp [cell_map hp htype, hvalue]
  · rcases hvalues with rfl | ⟨rfl, -⟩ <;> simp

theorem functions_map {fs : List Function} {params : List (List String)}
    (h : ∀ f ∈ fs, f.name ≠ "" ∧ f.returnType ≠ "")
    (hparams : params = fs.map (·.params) ∨ params = [] ∧ ∀ f ∈ fs, f.params = []) :
    functions (fs.map (·.name)) (fs.map (·.returnType)) params =
      { members := { functions := fs.map Function.bodiless } } := by
  have hname : ∀ n ∈ fs.map (·.name), n ≠ "" := by simpa using fun f hf => (h f hf).1
  refine content_eq (congrArg (fun l => ({ functions := l } : Members))
    (namedRows_map (fun f hf => (h f hf).1) fun i f hf => ?_)) (tableOmissions_eq_nil hname ?_)
  · have hgroup : group params i = f.params := by
      rcases hparams with rfl | ⟨rfl, hnone⟩
      · exact group_map hf
      · simp [group, hnone f (List.mem_of_getElem? hf)]
    simp [cell_map hf (h f (List.mem_of_getElem? hf)).2, hgroup, Function.bodiless]
  · rcases hparams with rfl | ⟨rfl, -⟩ <;> simp

theorem enumeration_of_ne {e : Enumeration} (hname : e.name ≠ "") (hvalues : e.values ≠ [])
    (h : ∀ v ∈ e.values, v ≠ "") :
    enumeration e.name e.values = { members := { enums := [e] } } := by
  have hfilter : e.values.filter (· ≠ "") = e.values := by
    rw [List.filter_eq_self]
    simpa using h
  simp only [enumeration, hfilter, hname, hvalues, if_false]

end Section

namespace Canonical

open Section (columnsAfterTag itemsOf groupsOf cell namedRows)

variable {literals : DefaultTable}

theorem items_entries_map {α : Type} {ms : List α} {text : α → String} (hne : ms ≠ [])
    (h : ∀ m ∈ ms, Entry (text m)) :
    Text.items (entries (ms.map text)).toList = ms.map text :=
  items_entries (by simpa using hne) (by simpa using h)

theorem entries_map_ne_nil {α : Type} {ms : List α} {text : α → String} (hne : ms ≠ [])
    (h : ∀ m ∈ ms, Entry (text m)) : (entries (ms.map text)).toList ≠ [] :=
  entries_ne_nil (by simpa using hne) (by simpa using h)

theorem groups_groups_map {α : Type} {ms : List α} {texts : α → List String} (hne : ms ≠ [])
    (h : ∀ m ∈ ms, ∀ p ∈ texts m, Param p) :
    Text.groups (groups (ms.map texts)).toList = ms.map texts :=
  groups_groups (by simpa using hne) (by simpa using h)

namespace Table

/-- A table whose columns come apart again is read column by column. -/
theorem read_of_separable {tag : Tag} {first : String} {others : List String}
    (hcolumns : ∀ c ∈ first :: others, Column c) (hfirst : first.toList ≠ [])
    (hneeded : tag.columnsNeeded ≤ others.length + 1)
    (hsep : Separable ⟨tag, first :: others⟩) :
    read literals ⟨tag, first :: others⟩ =
      Section.ofTexts literals tag ((first :: others).map String.toList) := by
  have hun : ∀ c ∈ (first :: others).map String.toList, Text.Unpaired c := by
    intro c hc
    obtain ⟨s, hs, rfl⟩ := List.mem_map.mp hc
    exact (hcolumns s hs).unpaired
  have hcols : columnsAfterTag (body ⟨tag, first :: others⟩) =
      (first :: others).map String.toList :=
    Section.columnsAfterTag_intercalate hfirst hun hsep
  have hlength : ¬((first :: others).map String.toList).length < tag.columnsNeeded := by
    simp only [List.length_map, List.length_cons]
    omega
  rw [read, Section.readText, hcols, if_neg hlength]

theorem read_of_list_ne {α : Type} {t : Table} {ms : List α} (list : Members → List α)
    (hnone : list {} = []) (hne : ms ≠ []) (h : list (t.read literals).members = ms) :
    t.read literals = Section.ofTexts literals t.tag (columnsAfterTag t.body) := by
  rw [read, Section.readText] at h ⊢
  by_cases hshort : (columnsAfterTag t.body).length < t.tag.columnsNeeded
  · rw [if_pos hshort] at h
    exact absurd (h.symm.trans hnone) hne
  · rw [if_neg hshort]

theorem separable_pair {tag : Tag} {c d : String} (hfirm : Firm c.toList) :
    Separable ⟨tag, [c, d]⟩ :=
  ⟨by simpa using hfirm.head, by simpa using hfirm.last⟩

/-- The columns of a table come apart if its names and types are read as they were written. -/
theorem separable_of_typed {α : Type} {tag : Tag} {names types others : List String} {ms : List α}
    {name type : α → String} {substitute : String} {member : Nat → String → α}
    (hnames : ∀ n ∈ names, Entry n) (htypes : ∀ t ∈ types, Entry t) (hne : ms ≠ [])
    (hothers : others.length ≤ 1) (hsubstitute : substitute.toList.getLast? ≠ some '\'')
    (hmsn : ms.map name = names) (hmst : ms.map type = types)
    {columns : List (List Char)}
    (hcolumns : columns =
      columnsAfterTag (body ⟨tag, entries names :: entries types :: others⟩))
    (hname : ∀ i n, name (member i n) = n)
    (htype : ∀ i n, type (member i n) = (cell (itemsOf columns 1) i).getD substitute)
    (hread : namedRows (itemsOf columns 0) member = ms) :
    Separable ⟨tag, entries names :: entries types :: others⟩ := by
  have hnames_ne : names ≠ [] := by
    rw [← hmsn]
    simpa using hne
  have hreadNames := congrArg (·.map name) hread
  simp only [Section.map_namedRows, hname, Section.namedRows_name, hmsn] at hreadNames
  have hreadTypes := congrArg (·.map type) hread
  simp only [Section.map_namedRows, htype, hmst] at hreadTypes
  rw [hcolumns] at hreadNames
  have hfirm : Firm (entries names).toList :=
    firm_of_names hnames hnames_ne (by simp) hreadNames
  cases others with
  | nil => exact separable_pair hfirm
  | cons third rest =>
    obtain rfl : rest = [] := List.length_eq_zero_iff.mp (by simpa using hothers)
    have hthird : [third.toList] ≠ [] := by simp
    have hlast := last_of_types hnames hnames_ne htypes hfirm hthird hsubstitute hcolumns hreadTypes
    exact ⟨by simpa using hfirm.head, by simpa using ⟨hfirm.last, hlast⟩⟩

end Table

section Constants

variable {cs : List Constant} (hne : cs ≠ [])
  (h : ∀ c ∈ cs, Entry c.name ∧ Entry c.type ∧ Entry c.value)

include hne h

theorem read_constants (hcolumns : ∀ c ∈ constantColumns cs, Column c)
    (hsep : Table.Separable ⟨.constants, constantColumns cs⟩) :
    Table.read literals ⟨.constants, constantColumns cs⟩ = { members := { constants := cs } } := by
  have hread : Table.read literals ⟨.constants, constantColumns cs⟩ =
      Section.ofTexts literals .constants ((constantColumns cs).map String.toList) :=
    Table.read_of_separable hcolumns (entries_map_ne_nil hne fun c hc => (h c hc).1)
      (by simp [Tag.columnsNeeded]) hsep
  have hnames : itemsOf ((constantColumns cs).map String.toList) 0 = cs.map (·.name) :=
    items_entries_map hne fun c hc => (h c hc).1
  have htypes : itemsOf ((constantColumns cs).map String.toList) 1 = cs.map (·.type) :=
    items_entries_map hne fun c hc => (h c hc).2.1
  have hvalues : itemsOf ((constantColumns cs).map String.toList) 2 = cs.map (·.value) :=
    items_entries_map hne fun c hc => (h c hc).2.2
  simp only [hread, Section.ofTexts_eq, hnames, htypes, hvalues]
  exact Section.constants_map fun c hc =>
    ⟨(h c hc).1.ne_empty, (h c hc).2.1.ne_empty, (h c hc).2.2.ne_empty⟩

theorem separable_of_read_constants
    (hread : (Table.read literals ⟨.constants, constantColumns cs⟩).members.constants = cs) :
    Table.Separable ⟨.constants, constantColumns cs⟩ := by
  have htable := Table.read_of_list_ne (·.constants) rfl hne hread
  simp only [htable, Section.ofTexts_eq, Section.constants] at hread
  exact Table.separable_of_typed (by simpa using fun c hc => (h c hc).1)
    (by simpa using fun c hc => (h c hc).2.1) hne (by simp) (by decide) rfl rfl rfl
    (fun _ _ => rfl) (fun _ _ => rfl) hread

end Constants

section Components

variable {cs : List Component} (hne : cs ≠ []) (h : ∀ c ∈ cs, Entry c.name ∧ Entry c.type)

include hne h

theorem read_components (hcolumns : ∀ c ∈ componentColumns cs, Column c)
    (hsep : Table.Separable ⟨.components, componentColumns cs⟩) :
    Table.read literals ⟨.components, componentColumns cs⟩ =
      { members := { components := cs } } := by
  have hread : Table.read literals ⟨.components, componentColumns cs⟩ =
      Section.ofTexts literals .components ((componentColumns cs).map String.toList) :=
    Table.read_of_separable hcolumns (entries_map_ne_nil hne fun c hc => (h c hc).1)
      (by simp [Tag.columnsNeeded]) hsep
  have hnames : itemsOf ((componentColumns cs).map String.toList) 0 = cs.map (·.name) :=
    items_entries_map hne fun c hc => (h c hc).1
  have htypes : itemsOf ((componentColumns cs).map String.toList) 1 = cs.map (·.type) :=
    items_entries_map hne fun c hc => (h c hc).2
  simp only [hread, Section.ofTexts_eq, hnames, htypes]
  exact Section.components_map fun c hc => ⟨(h c hc).1.ne_empty, (h c hc).2.ne_empty⟩

theorem separable_of_read_components
    (hread : (Table.read literals ⟨.components, componentColumns cs⟩).members.components = cs) :
    Table.Separable ⟨.components, componentColumns cs⟩ := by
  have htable := Table.read_of_list_ne (·.components) rfl hne hread
  simp only [htable, Section.ofTexts_eq, Section.components] at hread
  exact Table.separable_of_typed (by simpa using fun c hc => (h c hc).1)
    (by simpa using fun c hc => (h c hc).2) hne (by simp) (by decide) rfl rfl rfl
    (fun _ _ => rfl) (fun _ _ => rfl) hread

end Components

section Signals

variable {ss : List Signal} (hne : ss ≠ [])
  (h : ∀ s ∈ ss, Entry s.name ∧ ∀ p ∈ s.params, Param p)

include hne h

theorem read_signals (hcolumns : ∀ c ∈ signalColumns ss, Column c)
    (hsep : Table.Separable ⟨.signals, signalColumns ss⟩) :
    Table.read literals ⟨.signals, signalColumns ss⟩ = { members := { signals := ss } } := by
  have hread : Table.read literals ⟨.signals, signalColumns ss⟩ =
      Section.ofTexts literals .signals ((signalColumns ss).map String.toList) :=
    Table.read_of_separable hcolumns (entries_map_ne_nil hne fun s hs => (h s hs).1)
      (by simp [Tag.columnsNeeded]) hsep
  have hnames : itemsOf ((signalColumns ss).map String.toList) 0 = ss.map (·.name) :=
    items_entries_map hne fun s hs => (h s hs).1
  have hparams : groupsOf ((signalColumns ss).map String.toList) 1 = ss.map (·.params) :=
    groups_groups_map hne fun s hs => (h s hs).2
  simp only [hread, Section.ofTexts_eq, hnames, hparams]
  exact Section.signals_map fun s hs => (h s hs).1.ne_empty

theorem separable_of_read_signals
    (hread : (Table.read literals ⟨.signals, signalColumns ss⟩).members.signals = ss) :
    Table.Separable ⟨.signals, signalColumns ss⟩ := by
  have htable := Table.read_of_list_ne (·.signals) rfl hne hread
  simp only [htable, Section.ofTexts_eq, Section.signals] at hread
  have hnames := congrArg (·.map (fun s : Signal => s.name)) hread
  simp only [Section.map_namedRows, Section.namedRows_name] at hnames
  exact Table.separable_pair (firm_of_names (by simpa using fun s hs => (h s hs).1)
    (by simpa using hne) (by simp) hnames)

end Signals

section InterfaceProps

variable {props : List Property} (hne : props ≠ [])
  (h : ∀ p ∈ props, Entry p.name ∧ Entry p.type ∧ ∀ d ∈ p.default, Entry d)

include hne h

theorem itemsOf_interfaceColumns :
    itemsOf ((interfaceColumns props).map String.toList) 2 = props.map (·.default.getD "") ∨
      itemsOf ((interfaceColumns props).map String.toList) 2 = [] ∧
        ∀ p ∈ props, p.default = none := by
  by_cases hany : props.any (·.default.isSome) = true
  · left
    have hcolumn : ∀ s ∈ props.map (·.default.getD ""), Column s ∧ ',' ∉ s.toList := by
      intro s hs
      obtain ⟨p, hp, rfl⟩ := List.mem_map.mp hs
      cases hd : p.default with
      | none => exact ⟨column_empty, by simp⟩
      | some d =>
        have hentry : Entry d := (h p hp).2.2 d (by simp [hd])
        exact ⟨hentry.toColumn, hentry.comma⟩
    rw [interfaceColumns, if_pos hany]
    exact items_entries_of_column (by simpa using hne) hcolumn
  · right
    refine ⟨by rw [interfaceColumns, if_neg hany]; rfl, fun p hp => ?_⟩
    rw [List.any_eq_true] at hany
    by_contra hd
    exact hany ⟨p, hp, Option.isSome_iff_ne_none.mpr hd⟩

theorem read_interfaceProps (hcolumns : ∀ c ∈ interfaceColumns props, Column c)
    (hsep : Table.Separable ⟨.interfaceProps, interfaceColumns props⟩) :
    Table.read literals ⟨.interfaceProps, interfaceColumns props⟩ =
      { members := { interfaceProps := props } } := by
  have hread : Table.read literals ⟨.interfaceProps, interfaceColumns props⟩ =
      Section.ofTexts literals .interfaceProps ((interfaceColumns props).map String.toList) :=
    Table.read_of_separable hcolumns (entries_map_ne_nil hne fun p hp => (h p hp).1)
      (by simp [Tag.columnsNeeded]) hsep
  have hnames : itemsOf ((interfaceColumns props).map String.toList) 0 = props.map (·.name) :=
    items_entries_map hne fun p hp => (h p hp).1
  have htypes : itemsOf ((interfaceColumns props).map String.toList) 1 = props.map (·.type) :=
    items_entries_map hne fun p hp => (h p hp).2.1
  simp only [hread, Section.ofTexts_eq, hnames, htypes]
  refine Section.interfaceProps_map (fun p hp => ?_) (itemsOf_interfaceColumns hne h)
  refine ⟨(h p hp).1.ne_empty, (h p hp).2.1.ne_empty, fun hd => ?_⟩
  exact ((h p hp).2.2 "" (by simp [hd])).ne_empty rfl

theorem separable_of_read_interfaceProps
    (hread : (Table.read literals
      ⟨.interfaceProps, interfaceColumns props⟩).members.interfaceProps = props) :
    Table.Separable ⟨.interfaceProps, interfaceColumns props⟩ := by
  have htable := Table.read_of_list_ne (·.interfaceProps) rfl hne hread
  simp only [htable, Section.ofTexts_eq, Section.interfaceProps] at hread
  exact Table.separable_of_typed (by simpa using fun p hp => (h p hp).1)
    (by simpa using fun p hp => (h p hp).2.1) hne (by split <;> simp) (by decide) rfl rfl rfl
    (fun _ _ => rfl) (fun _ _ => rfl) hread

end InterfaceProps

section Functions

variable {fs : List Function} (hne : fs ≠ [])
  (h : ∀ f ∈ fs, Entry f.name ∧ Entry f.returnType ∧ ∀ p ∈ f.params, Param p)

include hne h

theorem groupsOf_functionColumns :
    groupsOf ((functionColumns fs).map String.toList) 2 = fs.map (·.params) ∨
      groupsOf ((functionColumns fs).map String.toList) 2 = [] ∧ ∀ f ∈ fs, f.params = [] := by
  by_cases hany : fs.any (!·.params.isEmpty) = true
  · left
    rw [functionColumns, if_pos hany]
    exact groups_groups_map hne fun f hf => (h f hf).2.2
  · right
    refine ⟨by rw [functionColumns, if_neg hany]; rfl, fun f hf => ?_⟩
    rw [List.any_eq_true] at hany
    by_contra hp
    exact hany ⟨f, hf, by simpa using hp⟩

theorem read_functions (hcolumns : ∀ c ∈ functionColumns fs, Column c)
    (hsep : Table.Separable ⟨.functions, functionColumns fs⟩) :
    Table.read literals ⟨.functions, functionColumns fs⟩ =
      { members := { functions := fs.map Function.bodiless } } := by
  have hread : Table.read literals ⟨.functions, functionColumns fs⟩ =
      Section.ofTexts literals .functions ((functionColumns fs).map String.toList) :=
    Table.read_of_separable hcolumns (entries_map_ne_nil hne fun f hf => (h f hf).1)
      (by simp [Tag.columnsNeeded]) hsep
  have hnames : itemsOf ((functionColumns fs).map String.toList) 0 = fs.map (·.name) :=
    items_entries_map hne fun f hf => (h f hf).1
  have htypes : itemsOf ((functionColumns fs).map String.toList) 1 = fs.map (·.returnType) :=
    items_entries_map hne fun f hf => (h f hf).2.1
  simp only [hread, Section.ofTexts_eq, hnames, htypes]
  exact Section.functions_map (fun f hf => ⟨(h f hf).1.ne_empty, (h f hf).2.1.ne_empty⟩)
    (groupsOf_functionColumns hne h)

theorem separable_of_read_functions
    (hread : (Table.read literals ⟨.functions, functionColumns fs⟩).members.functions =
      fs.map Function.bodiless) :
    Table.Separable ⟨.functions, functionColumns fs⟩ := by
  have htable := Table.read_of_list_ne (·.functions) rfl (by simpa using hne) hread
  have hname : (fs.map Function.bodiless).map (·.name) = fs.map (·.name) := by
    rw [List.map_map]
    rfl
  have htype : (fs.map Function.bodiless).map (·.returnType) = fs.map (·.returnType) := by
    rw [List.map_map]
    rfl
  simp only [htable, Section.ofTexts_eq, Section.functions] at hread
  exact Table.separable_of_typed (by simpa using fun f hf => (h f hf).1)
    (by simpa using fun f hf => (h f hf).2.1) (by simpa using hne) (by split <;> simp) (by decide)
    hname htype rfl (fun _ _ => rfl) (fun _ _ => rfl) hread

end Functions

section Properties

/-- The tag of the table for a group of properties. -/
def propertyTag : PropertyGroup → Tag
  | .flags => .flags
  | .current => .currentProps
  | .interface => .interfaceProps
  | .unique => .uniqueProps

/-- The type of a property of the group for which none is written. -/
def untyped : PropertyGroup → String
  | .flags => "bool"
  | _ => "var"

variable {props : List Property} {group : PropertyGroup} (hgroup : group ≠ .interface)

include hgroup

theorem ofTexts_propertyTag (columns : List (List Char)) :
    Section.ofTexts literals (propertyTag group) columns =
      { members := ({} : Members).withProperties group
          (Section.properties literals (untyped group) (itemsOf columns 0) (itemsOf columns 1)
            (itemsOf columns 2))
        omissions := Section.tableOmissions (propertyTag group) (itemsOf columns 0)
          [(itemsOf columns 1).length, (itemsOf columns 2).length] } := by
  rw [Section.ofTexts_eq]
  cases group with
  | interface => exact absurd rfl hgroup
  | _ => rfl

variable (hne : props ≠ [])
  (h : ∀ p ∈ props, Entry p.name ∧ Entry p.type ∧ ∀ d ∈ p.default, Entry d)

include hne h

theorem read_properties (hliteral : ∀ type, Entry (literals.literal type))
    (hcolumns : ∀ c ∈ propertyColumns literals props, Column c)
    (hsep : Table.Separable ⟨propertyTag group, propertyColumns literals props⟩) :
    Table.read literals ⟨propertyTag group, propertyColumns literals props⟩ =
      { members := ({} : Members).withProperties group (props.map (·.filled literals)) } := by
  have hread : Table.read literals ⟨propertyTag group, propertyColumns literals props⟩ =
      Section.ofTexts literals (propertyTag group)
        ((propertyColumns literals props).map String.toList) :=
    Table.read_of_separable hcolumns (entries_map_ne_nil hne fun p hp => (h p hp).1)
      (by cases group <;> simp [propertyTag, Tag.columnsNeeded]) hsep
  have hnames : itemsOf ((propertyColumns literals props).map String.toList) 0 =
      props.map (·.name) := items_entries_map hne fun p hp => (h p hp).1
  have htypes : itemsOf ((propertyColumns literals props).map String.toList) 1 =
      props.map (·.type) := items_entries_map hne fun p hp => (h p hp).2.1
  have hvalues : itemsOf ((propertyColumns literals props).map String.toList) 2 =
      props.map fun p => p.default.getD (literals.literal p.type) :=
    items_entries_map hne fun p hp => literal_getD hliteral (h p hp).2.2
  have hrows : Section.properties literals (untyped group) (props.map (·.name)) (props.map (·.type))
      (props.map fun p => p.default.getD (literals.literal p.type)) =
        props.map (·.filled literals) := Section.properties_map fun p hp =>
    ⟨(h p hp).1.ne_empty, (h p hp).2.1.ne_empty, (literal_getD hliteral (h p hp).2.2).ne_empty⟩
  rw [hread, ofTexts_propertyTag hgroup, hnames, htypes, hvalues, hrows]
  refine Section.content_eq rfl (Section.tableOmissions_eq_nil ?_ (by simp))
  simpa using fun p hp => (h p hp).1.ne_empty

theorem separable_of_read_properties
    (hread : (Table.read literals
      ⟨propertyTag group, propertyColumns literals props⟩).members.properties group =
        props.map (·.filled literals)) :
    Table.Separable ⟨propertyTag group, propertyColumns literals props⟩ := by
  have hnone : ({} : Members).properties group = [] := by cases group <;> rfl
  have htable := Table.read_of_list_ne (·.properties group) hnone (by simpa using hne) hread
  have hname : (props.map (·.filled literals)).map (·.name) = props.map (·.name) := by
    rw [List.map_map]
    rfl
  have htype : (props.map (·.filled literals)).map (·.type) = props.map (·.type) := by
    rw [List.map_map]
    rfl
  have hsubstitute : (untyped group).toList.getLast? ≠ some '\'' := by cases group <;> decide
  rw [htable, ofTexts_propertyTag hgroup, Members.properties_withProperties, Section.properties]
    at hread
  exact Table.separable_of_typed (by simpa using fun p hp => (h p hp).1)
    (by simpa using fun p hp => (h p hp).2.1) (by simpa using hne) (by simp) hsubstitute
    hname htype rfl (fun _ _ => rfl) (fun _ _ => rfl) hread

end Properties

section Enumerations

variable {e : Enumeration} (hname : Phrase e.name)

theorem length_enums_read (columns : List String) :
    (Table.read literals ⟨.enumeration, columns⟩).members.enums.length ≤ 1 := by
  rw [Table.read, Section.readText]
  split
  · simp
  · rw [Section.ofTexts_eq]
    simp only [Section.enumeration]
    split
    · simp
    split <;> simp

include hname

theorem read_enumeration (hne : e.values ≠ []) (h : ∀ v ∈ e.values, Entry v)
    (hsep : Table.Separable ⟨.enumeration, [e.name, entries e.values]⟩) :
    Table.read literals ⟨.enumeration, [e.name, entries e.values]⟩ =
      { members := { enums := [e] } } := by
  have hcolumns : ∀ c ∈ [e.name, entries e.values], Column c := by
    intro c hc
    rcases List.mem_pair.mp hc with rfl | rfl
    · exact hname.toColumn
    · exact column_entries fun v hv => (h v hv).toColumn
  have hread : Table.read literals ⟨.enumeration, [e.name, entries e.values]⟩ =
      Section.ofTexts literals .enumeration ([e.name, entries e.values].map String.toList) :=
    Table.read_of_separable hcolumns (ne_empty_iff.mp hname.ne_empty) (by simp [Tag.columnsNeeded])
      hsep
  have hvalues : itemsOf ([e.name, entries e.values].map String.toList) 1 = e.values :=
    items_entries hne h
  have htrim : (([e.name, entries e.values].map String.toList)[0]?.map
      fun c => String.ofList (Text.trim c)).getD "" = e.name := by
    simp [hname.trim_toList]
  simp only [hread, Section.ofTexts_eq, hvalues, htrim]
  exact Section.enumeration_of_ne hname.ne_empty hne fun v hv => (h v hv).ne_empty

theorem separable_of_read_enumeration
    (hread : (Table.read literals ⟨.enumeration, [e.name, entries e.values]⟩).members.enums = [e]) :
    Table.Separable ⟨.enumeration, [e.name, entries e.values]⟩ := by
  have htable := Table.read_of_list_ne (·.enums) rfl (List.cons_ne_nil e []) hread
  simp only [htable, Section.ofTexts_eq, Section.enumeration] at hread
  have hothers : [(entries e.values).toList] ≠ [] := by simp
  refine Table.separable_pair (firm_of_name hname hothers ?_)
  split at hread
  · simp at hread
  split at hread
  · simp at hread
  · exact congrArg (fun l => (l.map (fun e : Enumeration => e.name)).headD "") hread

end Enumerations

end Canonical

end Blueprint
