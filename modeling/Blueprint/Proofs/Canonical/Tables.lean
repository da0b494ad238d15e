import Blueprint.Proofs.Canonical.Cells
import Blueprint.Proofs.Description.Independence

/-!
# Tables of a canonical description

A canonical description is a header and a row of tables. Each table belongs to one list of members,
and each list but that of the enumerations has at most one table. The texts in the columns of all
tables are as compact as those that the record holds.
-/

namespace Blueprint

/-- The property with its default, or else the literal of its type. -/
def Property.filled (literals : DefaultTable) (p : Property) : Property :=
  { p with default := some (p.default.getD (literals.literal p.type)) }

/-- The function as it is declared without its body. -/
def Function.bodiless (f : Function) : Function :=
  .declared f.name f.params f.returnType

/-- What a canonical description says of the members. -/
def Members.written (literals : DefaultTable) (m : Members) : Members :=
  { m with
    flags := m.flags.map (·.filled literals)
    currentProps := m.currentProps.map (·.filled literals)
    uniqueProps := m.uniqueProps.map (·.filled literals)
    functions := m.functions.map Function.bodiless }

namespace Canonical

/-- A table that is written: its tag and the texts of its columns. -/
structure Table where
  tag : Tag
  columns : List String

namespace Table

def text (t : Table) : String :=
  table t.tag t.columns

def body (t : Table) : List Char :=
  ['\'', '\''].intercalate (t.columns.map String.toList)

def Separable (t : Table) : Prop :=
  Section.Separable (t.columns.map String.toList)

def read (literals : DefaultTable) (t : Table) : Section.Content :=
  Section.readText literals t.tag t.body

theorem toList_text (t : Table) : t.text.toList = t.tag.code.toList ++ '\'' :: t.body := by
  simp [text, table, body, String.toList_intercalate]

end Table

/-- The table for a list of members: none for an empty list. -/
def tableFor {α : Type} (tag : Tag) (members : List α) (columns : List String) : List Table :=
  if members.isEmpty then [] else [⟨tag, columns⟩]

def constantColumns (cs : List Constant) : List String :=
  [entries (cs.map (·.name)), entries (cs.map (·.type)), entries (cs.map (·.value))]

def propertyColumns (literals : DefaultTable) (props : List Property) : List String :=
  [entries (props.map (·.name)), entries (props.map (·.type)),
    entries (props.map fun p => p.default.getD (literals.literal p.type))]

def interfaceColumns (props : List Property) : List String :=
  [entries (props.map (·.name)), entries (props.map (·.type))] ++
    if props.any (·.default.isSome) then [entries (props.map (·.default.getD ""))] else []

def signalColumns (ss : List Signal) : List String :=
  [entries (ss.map (·.name)), groups (ss.map (·.params))]

def functionColumns (fs : List Function) : List String :=
  [entries (fs.map (·.name)), entries (fs.map (·.returnType))] ++
    if fs.any (!·.params.isEmpty) then [groups (fs.map (·.params))] else []

def componentColumns (cs : List Component) : List String :=
  [entries (cs.map (·.name)), entries (cs.map (·.type))]

/-- The tables that are written for one list of members. -/
def tablesOf (literals : DefaultTable) (m : Members) : MemberList → List Table
  | .constants => tableFor .constants m.constants (constantColumns m.constants)
  | .enums => m.enums.map fun e => ⟨.enumeration, [e.name, entries e.values]⟩
  | .properties .flags => tableFor .flags m.flags (propertyColumns literals m.flags)
  | .properties .current =>
    tableFor .currentProps m.currentProps (propertyColumns literals m.currentProps)
  | .properties .interface =>
    tableFor .interfaceProps m.interfaceProps (interfaceColumns m.interfaceProps)
  | .properties .unique =>
    tableFor .uniqueProps m.uniqueProps (propertyColumns literals m.uniqueProps)
  | .signals => tableFor .signals m.signals (signalColumns m.signals)
  | .functions => tableFor .functions m.functions (functionColumns m.functions)
  | .components => tableFor .components m.components (componentColumns m.components)

/-- The lists in the order in which their tables are written. -/
def writtenOrder : List MemberList :=
  [.constants, .enums, .properties .flags, .properties .current, .properties .interface,
    .properties .unique, .signals, .functions, .components]

def tables (literals : DefaultTable) (m : Members) : List Table :=
  writtenOrder.flatMap (tablesOf literals m)

theorem mem_writtenOrder (list : MemberList) : list ∈ writtenOrder := by
  cases list with
  | properties group => cases group <;> decide
  | _ => decide

theorem map_text_tableFor {α : Type} (tag : Tag) (members : List α) (columns : List String) :
    (tableFor tag members columns).map Table.text = forMembers tag members columns := by
  cases members <;> rfl

theorem sections_eq (literals : DefaultTable) (r : ClassRecord) :
    sections literals r = header r :: (tables literals r.toMembers).map Table.text := by
  have henums :
      (tablesOf literals r.toMembers .enums).map Table.text = r.enums.map enumeration := by
    rw [tablesOf, List.map_map]
    rfl
  simp only [tables, writtenOrder, List.flatMap_cons, List.flatMap_nil, List.append_nil,
    List.map_append, henums]
  simp only [tablesOf, map_text_tableFor, sections, constants, properties, interfaceProps, signals,
    functions, components, constantColumns, propertyColumns, interfaceColumns, signalColumns,
    functionColumns, componentColumns, List.append_assoc, List.cons_append, List.nil_append]

theorem mem_tableFor {α : Type} {tag : Tag} {members : List α} {columns : List String} {t : Table} :
    t ∈ tableFor tag members columns ↔ members ≠ [] ∧ t = ⟨tag, columns⟩ := by
  cases members <;> simp [tableFor]

theorem list?_tag_of_mem_tablesOf {literals : DefaultTable} {m : Members} {list : MemberList}
    {t : Table} (h : t ∈ tablesOf literals m list) : t.tag.list? = some list := by
  cases list with
  | enums =>
    obtain ⟨e, -, rfl⟩ := List.mem_map.mp h
    rfl
  | properties group =>
    cases group <;> (obtain ⟨-, rfl⟩ := mem_tableFor.mp h; rfl)
  | _ =>
    obtain ⟨-, rfl⟩ := mem_tableFor.mp h
    rfl

end Canonical

/-- The texts in the members are of these sorts: the entries of columns, the names of enumerations
and the parameters. Every enumeration has a value. -/
structure Members.Spelled (entry phrase param : String → Prop) (m : Members) : Prop where
  signals : ∀ s ∈ m.signals, entry s.name ∧ ∀ p ∈ s.params, param p
  constants : ∀ c ∈ m.constants, entry c.name ∧ entry c.type ∧ entry c.value
  enums : ∀ e ∈ m.enums, phrase e.name ∧ e.values ≠ [] ∧ ∀ v ∈ e.values, entry v
  properties : ∀ group, ∀ p ∈ m.properties group,
    entry p.name ∧ entry p.type ∧ ∀ d ∈ p.default, entry d
  functions : ∀ f ∈ m.functions, entry f.name ∧ entry f.returnType ∧ ∀ p ∈ f.params, param p
  components : ∀ c ∈ m.components, entry c.name ∧ entry c.type

theorem Members.Spelled.imp {entry phrase param entry' phrase' param' : String → Prop} {m : Members}
    (h : m.Spelled entry phrase param) (hentry : ∀ s, entry s → entry' s)
    (hphrase : ∀ s, phrase s → phrase' s) (hparam : ∀ s, param s → param' s) :
    m.Spelled entry' phrase' param' where
  signals s hs := ⟨hentry _ (h.signals s hs).1, fun p hp => hparam p ((h.signals s hs).2 p hp)⟩
  constants c hc := ⟨hentry _ (h.constants c hc).1, hentry _ (h.constants c hc).2.1,
    hentry _ (h.constants c hc).2.2⟩
  enums e he := ⟨hphrase _ (h.enums e he).1, (h.enums e he).2.1,
    fun v hv => hentry v ((h.enums e he).2.2 v hv)⟩
  properties group p hp := ⟨hentry _ (h.properties group p hp).1,
    hentry _ (h.properties group p hp).2.1,
    fun d hd => hentry d ((h.properties group p hp).2.2 d hd)⟩
  functions f hf := ⟨hentry _ (h.functions f hf).1, hentry _ (h.functions f hf).2.1,
    fun p hp => hparam p ((h.functions f hf).2.2 p hp)⟩
  components c hc := ⟨hentry _ (h.components c hc).1, hentry _ (h.components c hc).2⟩

namespace Canonical

variable {literals : DefaultTable}

theorem literal_getD {P : String → Prop} (hliteral : ∀ type, P (literals.literal type))
    {p : Property} (h : ∀ d ∈ p.default, P d) : P (p.default.getD (literals.literal p.type)) := by
  cases hd : p.default with
  | none => exact hliteral p.type
  | some d => exact h d (by simp [hd])

section Columns

/-- What holds of two columns and of a third, which may be left out, holds of all. -/
theorem forall_mem_optional {P : String → Prop} {first second third : String} {present : Prop}
    [Decidable present] (hfirst : P first) (hsecond : P second) (hthird : P third) :
    ∀ c ∈ [first, second] ++ (if present then [third] else []), P c := by
  intro c hc
  rcases List.mem_append.mp hc with hc | hc
  · rcases List.mem_pair.mp hc with rfl | rfl
    · exact hfirst
    · exact hsecond
  · split at hc
    · rw [List.mem_singleton.mp hc]
      exact hthird
    · simp at hc

variable {P : String → Prop} (hempty : P "")
  (hentries : ∀ l : List String, (∀ s ∈ l, P s) → P (entries l))
  (hgroups : ∀ lists : List (List String), (∀ l ∈ lists, ∀ s ∈ l, P s) → P (groups lists))

include hentries

theorem entries_map {α : Type} {ms : List α} {text : α → String} (h : ∀ m ∈ ms, P (text m)) :
    P (entries (ms.map text)) :=
  hentries _ (by simpa using h)

theorem forall_mem_propertyColumns (hliteral : ∀ type, P (literals.literal type))
    {props : List Property} (h : ∀ p ∈ props, P p.name ∧ P p.type ∧ ∀ d ∈ p.default, P d) :
    ∀ c ∈ propertyColumns literals props, P c := by
  refine List.forall_mem_cons.mpr ⟨?_, List.forall_mem_cons.mpr
    ⟨?_, List.forall_mem_singleton.mpr ?_⟩⟩
  · exact entries_map hentries fun p hp => (h p hp).1
  · exact entries_map hentries fun p hp => (h p hp).2.1
  · exact entries_map hentries fun p hp => literal_getD hliteral (h p hp).2.2

include hempty in
theorem forall_mem_interfaceColumns {props : List Property}
    (h : ∀ p ∈ props, P p.name ∧ P p.type ∧ ∀ d ∈ p.default, P d) :
    ∀ c ∈ interfaceColumns props, P c := by
  have hdefault : ∀ p ∈ props, P (p.default.getD "") := by
    intro p hp
    cases hd : p.default with
    | none => exact hempty
    | some d => exact (h p hp).2.2 d (by simp [hd])
  apply forall_mem_optional
  · exact entries_map hentries fun p hp => (h p hp).1
  · exact entries_map hentries fun p hp => (h p hp).2.1
  · exact entries_map hentries hdefault

include hgroups

theorem forall_mem_functionColumns {fs : List Function}
    (h : ∀ f ∈ fs, P f.name ∧ P f.returnType ∧ ∀ p ∈ f.params, P p) :
    ∀ c ∈ functionColumns fs, P c := by
  apply forall_mem_optional
  · exact entries_map hentries fun f hf => (h f hf).1
  · exact entries_map hentries fun f hf => (h f hf).2.1
  · exact hgroups _ (by simpa using fun f hf => (h f hf).2.2)

include hempty

/-- What holds of the texts in the members, and of the columns made of such texts, holds of every
column that is written. -/
theorem forall_mem_columns (hliteral : ∀ type, P (literals.literal type)) {m : Members}
    (hm : m.Spelled P P P) {list : MemberList} {t : Table} (ht : t ∈ tablesOf literals m list) :
    ∀ c ∈ t.columns, P c := by
  cases list with
  | constants =>
    obtain ⟨-, rfl⟩ := mem_tableFor.mp ht
    refine List.forall_mem_cons.mpr ⟨?_, List.forall_mem_cons.mpr
      ⟨?_, List.forall_mem_singleton.mpr ?_⟩⟩
    · exact entries_map hentries fun c hc => (hm.constants c hc).1
    · exact entries_map hentries fun c hc => (hm.constants c hc).2.1
    · exact entries_map hentries fun c hc => (hm.constants c hc).2.2
  | enums =>
    obtain ⟨e, he, rfl⟩ := List.mem_map.mp ht
    obtain ⟨hname, -, hvalues⟩ := hm.enums e he
    exact List.forall_mem_cons.mpr ⟨hname, List.forall_mem_singleton.mpr (hentries _ hvalues)⟩
  | properties group =>
    cases group with
    | interface =>
      obtain ⟨-, rfl⟩ := mem_tableFor.mp ht
      exact forall_mem_interfaceColumns hempty hentries (hm.properties .interface)
    | flags =>
      obtain ⟨-, rfl⟩ := mem_tableFor.mp ht
      exact forall_mem_propertyColumns hentries hliteral (hm.properties .flags)
    | current =>
      obtain ⟨-, rfl⟩ := mem_tableFor.mp ht
      exact forall_mem_propertyColumns hentries hliteral (hm.properties .current)
    | unique =>
      obtain ⟨-, rfl⟩ := mem_tableFor.mp ht
      exact forall_mem_propertyColumns hentries hliteral (hm.properties .unique)
  | signals =>
    obtain ⟨-, rfl⟩ := mem_tableFor.mp ht
    refine List.forall_mem_cons.mpr ⟨?_, List.forall_mem_singleton.mpr ?_⟩
    · exact entries_map hentries fun s hs => (hm.signals s hs).1
    · exact hgroups _ (by simpa using fun s hs => (hm.signals s hs).2)
  | functions =>
    obtain ⟨-, rfl⟩ := mem_tableFor.mp ht
    exact forall_mem_functionColumns hentries hgroups hm.functions
  | components =>
    obtain ⟨-, rfl⟩ := mem_tableFor.mp ht
    refine List.forall_mem_cons.mpr ⟨?_, List.forall_mem_singleton.mpr ?_⟩
    · exact entries_map hentries fun c hc => (hm.components c hc).1
    · exact entries_map hentries fun c hc => (hm.components c hc).2

end Columns

theorem column_of_mem_tablesOf (hliteral : ∀ type, Entry (literals.literal type)) {m : Members}
    (hm : m.Spelled Entry Phrase Param) {list : MemberList} {t : Table}
    (ht : t ∈ tablesOf literals m list) : ∀ c ∈ t.columns, Column c := by
  have hcolumns : m.Spelled Column Column Column :=
    hm.imp (fun _ h => h.toColumn) (fun _ h => h.toColumn) fun _ h => h.toColumn
  exact forall_mem_columns column_empty (fun _ => column_entries) (fun _ => column_groups)
    (fun type => (hliteral type).toColumn) hcolumns ht

end Canonical

end Blueprint
