import Blueprint.Proofs.Canonical.Reading

/-!
# Reading canonical descriptions

A canonical description is read section by section. Its header is read as it was written, and each
list of members is read as it was written exactly if the columns of its tables come apart again.
-/

namespace Blueprint

namespace Canonical

variable {literals : DefaultTable}

section Lists

/-- A list with one table is read back exactly if the columns of the table come apart again. -/
theorem concat_tableFor_iff {α β : Type} {ms : List α} {tag : Tag} {columns : List String}
    {list : MemberList} {n : Members} (get : Members → List β)
    (hget : ∀ k k' : Members, k.only list = k'.only list ↔ get k = get k')
    (hempty : ms = [] → get n = get {})
    (hread : ms ≠ [] → Table.Separable ⟨tag, columns⟩ →
      get (Table.read literals ⟨tag, columns⟩).members = get n)
    (hsep : ms ≠ [] → get (Table.read literals ⟨tag, columns⟩).members = get n →
      Table.Separable ⟨tag, columns⟩) :
    (Members.concat ((tableFor tag ms columns).map fun t => (t.read literals).members)).only list =
        n.only list ↔
      ∀ t ∈ tableFor tag ms columns, t.Separable := by
  rw [hget]
  by_cases hne : ms = []
  · have hnone := hempty hne
    subst hne
    simp [tableFor, hnone]
  · have htables : tableFor tag ms columns = [⟨tag, columns⟩] := by
      simp [tableFor, List.isEmpty_iff, hne]
    simp only [htables, List.map_cons, List.map_nil, Members.concat_cons, Members.concat_nil,
      Members.append_empty, List.forall_mem_singleton]
    exact ⟨hsep hne, hread hne⟩

theorem length_flatMap_le {α β : Type} {f : α → List β} {l : List α}
    (h : ∀ a ∈ l, (f a).length ≤ 1) : (l.flatMap f).length ≤ l.length := by
  induction l with
  | nil => simp
  | cons a l ih =>
    have ha := h a List.mem_cons_self
    have hl := ih fun b hb => h b (List.mem_cons_of_mem a hb)
    simp only [List.flatMap_cons, List.length_append, List.length_cons]
    omega

/-- A list that is made of at most one part for each entry is the list of entries only if each part
is its entry. -/
theorem flatMap_eq_self_iff {α : Type} {f : α → List α} {l : List α}
    (h : ∀ a ∈ l, (f a).length ≤ 1) : l.flatMap f = l ↔ ∀ a ∈ l, f a = [a] := by
  induction l with
  | nil => simp
  | cons a l ih =>
    have hl : ∀ b ∈ l, (f b).length ≤ 1 := fun b hb => h b (List.mem_cons_of_mem a hb)
    rw [List.flatMap_cons, List.forall_mem_cons, ← ih hl]
    constructor
    · intro heq
      cases hf : f a with
      | nil =>
        have hlong := congrArg List.length heq
        have hshort := length_flatMap_le hl
        rw [hf, List.nil_append, List.length_cons] at hlong
        omega
      | cons b rest =>
        have hrest : rest = [] := by
          have hone := h a List.mem_cons_self
          rw [hf, List.length_cons] at hone
          exact List.length_eq_zero_iff.mp (by omega)
        rw [hf, hrest, List.singleton_append, List.cons.injEq] at heq
        rw [hrest, heq.1]
        exact ⟨rfl, heq.2⟩
    · rintro ⟨ha, hrest⟩
      rw [ha, hrest, List.singleton_append]

theorem enums_concat (ms : List Members) : (Members.concat ms).enums = ms.flatMap (·.enums) := by
  induction ms with
  | nil => rfl
  | cons m ms ih =>
    rw [Members.concat_cons, List.flatMap_cons, ← ih]
    rfl

variable {m : Members} (hliteral : ∀ type, Entry (literals.literal type))
  (hm : m.Spelled Entry Phrase Param)

include hliteral hm

theorem concat_properties_iff {group : PropertyGroup} (hgroup : group ≠ .interface)
    (htables : tablesOf literals m (.properties group) = tableFor (propertyTag group)
      (m.properties group) (propertyColumns literals (m.properties group)))
    (hwritten : (m.written literals).properties group =
      (m.properties group).map (·.filled literals)) :
    (Members.concat ((tablesOf literals m (.properties group)).map
        fun t => (t.read literals).members)).only (.properties group) =
        (m.written literals).only (.properties group) ↔
      ∀ t ∈ tablesOf literals m (.properties group), t.Separable := by
  have hget : ∀ k k' : Members, k.only (.properties group) = k'.only (.properties group) ↔
      k.properties group = k'.properties group := by
    intro k k'
    constructor
    · intro heq
      simpa [Members.only] using congrArg (Members.properties · group) heq
    · exact congrArg (({} : Members).withProperties group)
  rw [htables]
  refine concat_tableFor_iff (Members.properties · group) hget (fun hnil => ?_)
    (fun hne hsep => ?_) fun hne heq => ?_
  · rw [hwritten, hnil]
    cases group <;> rfl
  · have hcolumns : ∀ c ∈ propertyColumns literals (m.properties group), Column c :=
      column_of_mem_tablesOf hliteral hm (by rw [htables]; exact mem_tableFor.mpr ⟨hne, rfl⟩)
    rw [read_properties hgroup hne (hm.properties group) hliteral hcolumns hsep, hwritten,
      Members.properties_withProperties]
  · rw [hwritten] at heq
    exact separable_of_read_properties hgroup hne (hm.properties group) heq

/-- A list of members is read back exactly if the columns of its tables come apart again. -/
theorem only_concat_read_iff (list : MemberList) :
    (Members.concat ((tablesOf literals m list).map fun t => (t.read literals).members)).only list =
        (m.written literals).only list ↔
      ∀ t ∈ tablesOf literals m list, t.Separable := by
  have hcolumns : ∀ list, ∀ t ∈ tablesOf literals m list, ∀ c ∈ t.columns, Column c :=
    fun _ _ => column_of_mem_tablesOf hliteral hm
  cases list with
  | constants =>
    refine concat_tableFor_iff Members.constants
      (fun _ _ => ⟨congrArg Members.constants, congrArg fun l => ({ constants := l } : Members)⟩)
      id (fun hne hsep => ?_) fun hne heq => ?_
    · have hfit := hcolumns .constants _ (mem_tableFor.mpr ⟨hne, rfl⟩)
      rw [read_constants hne hm.constants hfit hsep]
      rfl
    · exact separable_of_read_constants hne hm.constants heq
  | signals =>
    refine concat_tableFor_iff Members.signals
      (fun _ _ => ⟨congrArg Members.signals, congrArg fun l => ({ signals := l } : Members)⟩)
      id (fun hne hsep => ?_) fun hne heq => ?_
    · have hfit := hcolumns .signals _ (mem_tableFor.mpr ⟨hne, rfl⟩)
      rw [read_signals hne hm.signals hfit hsep]
      rfl
    · exact separable_of_read_signals hne hm.signals heq
  | functions =>
    refine concat_tableFor_iff Members.functions
      (fun _ _ => ⟨congrArg Members.functions, congrArg fun l => ({ functions := l } : Members)⟩)
      (congrArg (List.map Function.bodiless)) (fun hne hsep => ?_) fun hne heq => ?_
    · have hfit := hcolumns .functions _ (mem_tableFor.mpr ⟨hne, rfl⟩)
      rw [read_functions hne hm.functions hfit hsep]
      rfl
    · exact separable_of_read_functions hne hm.functions heq
  | components =>
    refine concat_tableFor_iff Members.components
      (fun _ _ => ⟨congrArg Members.components, congrArg fun l => ({ components := l } : Members)⟩)
      id (fun hne hsep => ?_) fun hne heq => ?_
    · have hfit := hcolumns .components _ (mem_tableFor.mpr ⟨hne, rfl⟩)
      rw [read_components hne hm.components hfit hsep]
      rfl
    · exact separable_of_read_components hne hm.components heq
  | properties group =>
    cases group with
    | flags => exact concat_properties_iff hliteral hm (by decide) rfl rfl
    | current => exact concat_properties_iff hliteral hm (by decide) rfl rfl
    | unique => exact concat_properties_iff hliteral hm (by decide) rfl rfl
    | interface =>
      have hprops := hm.properties .interface
      refine concat_tableFor_iff Members.interfaceProps
        (fun _ _ => ⟨congrArg Members.interfaceProps,
          congrArg fun l => ({ interfaceProps := l } : Members)⟩)
        id (fun hne hsep => ?_) fun hne heq => ?_
      · have hfit := hcolumns (.properties .interface) _ (mem_tableFor.mpr ⟨hne, rfl⟩)
        rw [read_interfaceProps hne hprops hfit hsep]
        rfl
      · exact separable_of_read_interfaceProps hne hprops heq
  | enums =>
    have honly : ∀ n : Members, n.only .enums = (m.written literals).only .enums ↔
        n.enums = m.enums :=
      fun n => ⟨congrArg Members.enums, congrArg fun l => ({ enums := l } : Members)⟩
    have hlength : ∀ e ∈ m.enums, (Table.read literals
        ⟨.enumeration, [e.name, entries e.values]⟩).members.enums.length ≤ 1 :=
      fun e _ => length_enums_read _
    rw [honly, enums_concat, tablesOf, List.map_map, List.flatMap_map, List.forall_mem_map]
    refine (flatMap_eq_self_iff hlength).trans (forall₂_congr fun e he => ?_)
    obtain ⟨hname, hne, hvalues⟩ := hm.enums e he
    constructor
    · exact separable_of_read_enumeration hname
    · intro hsep
      rw [read_enumeration hname hne hvalues hsep]

theorem omissions_read {list : MemberList} {t : Table} (ht : t ∈ tablesOf literals m list)
    (hsep : t.Separable) : (t.read literals).omissions = [] := by
  have hcolumns := column_of_mem_tablesOf hliteral hm ht
  cases list with
  | constants =>
    obtain ⟨hne, rfl⟩ := mem_tableFor.mp ht
    rw [read_constants hne hm.constants hcolumns hsep]
  | signals =>
    obtain ⟨hne, rfl⟩ := mem_tableFor.mp ht
    rw [read_signals hne hm.signals hcolumns hsep]
  | functions =>
    obtain ⟨hne, rfl⟩ := mem_tableFor.mp ht
    rw [read_functions hne hm.functions hcolumns hsep]
  | components =>
    obtain ⟨hne, rfl⟩ := mem_tableFor.mp ht
    rw [read_components hne hm.components hcolumns hsep]
  | properties group =>
    have hproperties : ∀ group, group ≠ .interface →
        t ∈ tableFor (propertyTag group) (m.properties group)
          (propertyColumns literals (m.properties group)) →
        (t.read literals).omissions = [] := by
      intro group hgroup ht
      obtain ⟨hne, rfl⟩ := mem_tableFor.mp ht
      rw [read_properties hgroup hne (hm.properties group) hliteral hcolumns hsep]
    cases group with
    | flags => exact hproperties .flags (by decide) ht
    | current => exact hproperties .current (by decide) ht
    | unique => exact hproperties .unique (by decide) ht
    | interface =>
      obtain ⟨hne, rfl⟩ := mem_tableFor.mp ht
      rw [read_interfaceProps hne (hm.properties .interface) hcolumns hsep]
  | enums =>
    obtain ⟨e, he, rfl⟩ := List.mem_map.mp ht
    obtain ⟨hname, hne, hvalues⟩ := hm.enums e he
    rw [read_enumeration hname hne hvalues hsep]

omit hliteral hm in
theorem only_read {t : Table} {list : MemberList} (h : t.tag.list? ≠ some list) :
    (t.read literals).members.only list = {} := by
  rw [Table.read, Section.readText]
  split
  · simp
  · exact Section.only_members_ofColumns h _

omit hliteral hm in
theorem only_concat_tables (list : MemberList) :
    (Members.concat ((tables literals m).map fun t => (t.read literals).members)).only list =
      (Members.concat ((tablesOf literals m list).map fun t => (t.read literals).members)).only
        list := by
  have hother : ∀ l ∈ writtenOrder, decide (l = list) = false →
      (Members.concat ((tablesOf literals m l).map
        fun t => (t.read literals).members)).only list = {} := by
    intro l _ hl
    rw [Members.only_concat, List.map_map]
    refine Members.concat_eq_empty fun n hn => ?_
    obtain ⟨t, ht, rfl⟩ := List.mem_map.mp hn
    refine only_read fun htag => ?_
    rw [list?_tag_of_mem_tablesOf ht] at htag
    simp [Option.some.inj htag] at hl
  have hone : writtenOrder.filter (· = list) = [list] := by
    cases list with
    | properties group => cases group <;> decide
    | _ => decide
  rw [tables, List.map_flatMap, Members.concat_flatMap, Members.only_concat, List.map_map]
  refine (Members.concat_map_filter hother).symm.trans ?_
  rw [hone]
  simp

/-- The members are read back exactly if the columns of all tables come apart again. -/
theorem concat_read_iff :
    Members.concat ((tables literals m).map fun t => (t.read literals).members) =
        m.written literals ↔
      ∀ t ∈ tables literals m, t.Separable := by
  have hlist := fun list => only_concat_read_iff hliteral hm list
  simp only [← only_concat_tables] at hlist
  constructor
  · intro heq t ht
    obtain ⟨list, -, ht⟩ := List.mem_flatMap.mp ht
    exact (hlist list).mp (by rw [heq]) t ht
  · intro hsep
    refine Members.ext_only fun list => (hlist list).mpr fun t ht => hsep t ?_
    exact List.mem_flatMap.mpr ⟨list, mem_writtenOrder list, ht⟩

end Lists

end Canonical

end Blueprint
