import Blueprint.Proofs.Canonical.Writing
import Blueprint.Proofs.Description.Faults
import Mathlib.Data.List.ReduceOption

/-!
# Records that come from a description

What a parsed record holds was cut out of a compact text, so it can be written again as it is. Such
a record has the kind of its name and no position, its functions have no bodies of their own, and
only its interface properties can lack a default.
-/

namespace Blueprint

open Canonical (Column Phrase Entry Param Title)

section Written

variable {literals : DefaultTable}

theorem Members.written_append (l r : Members) :
    (l ++ r).written literals = l.written literals ++ r.written literals := by
  simp [append_def, append, written]

theorem Members.spelled_empty : ({} : Members).Spelled Entry Phrase Param := by
  constructor
  case properties =>
    intro group
    cases group <;> simp [Members.properties]
  all_goals simp

theorem Members.Spelled.append {entry phrase param : String → Prop} {l r : Members}
    (hl : l.Spelled entry phrase param) (hr : r.Spelled entry phrase param) :
    (l ++ r).Spelled entry phrase param where
  signals := List.forall_mem_append.mpr ⟨hl.signals, hr.signals⟩
  constants := List.forall_mem_append.mpr ⟨hl.constants, hr.constants⟩
  enums := List.forall_mem_append.mpr ⟨hl.enums, hr.enums⟩
  properties group := by
    have happend : (l ++ r).properties group = l.properties group ++ r.properties group := by
      cases group <;> rfl
    rw [happend]
    exact List.forall_mem_append.mpr ⟨hl.properties group, hr.properties group⟩
  functions := List.forall_mem_append.mpr ⟨hl.functions, hr.functions⟩
  components := List.forall_mem_append.mpr ⟨hl.components, hr.components⟩

/-- Members that are fit to be written, and that are written as they are. -/
structure Members.Canonical (literals : DefaultTable) (m : Members) : Prop where
  spelled : m.Spelled Entry Phrase Param
  written : m.written literals = m

theorem Members.canonical_empty : ({} : Members).Canonical literals :=
  ⟨spelled_empty, rfl⟩

theorem Members.Canonical.append {l r : Members} (hl : l.Canonical literals)
    (hr : r.Canonical literals) : (l ++ r).Canonical literals where
  spelled := hl.spelled.append hr.spelled
  written := by rw [written_append, hl.written, hr.written]

theorem Members.canonical_concat {ms : List Members} (h : ∀ m ∈ ms, m.Canonical literals) :
    (concat ms).Canonical literals := by
  induction ms with
  | nil => exact canonical_empty
  | cons m ms ih =>
    exact (h m List.mem_cons_self).append (ih fun n hn => h n (List.mem_cons_of_mem m hn))

theorem Members.canonical_properties (group : PropertyGroup) {props : List Property}
    (h : ∀ p ∈ props, Entry p.name ∧ Entry p.type ∧ ∃ d, p.default = some d ∧ Entry d) :
    (({} : Members).withProperties group props).Canonical literals := by
  have hdefault : ∀ p ∈ props, Entry p.name ∧ Entry p.type ∧ ∀ d ∈ p.default, Entry d := by
    intro p hp
    obtain ⟨hname, htype, d, hd, hentry⟩ := h p hp
    exact ⟨hname, htype, by simpa [hd] using hentry⟩
  have hfilled : props.map (·.filled literals) = props := by
    conv_rhs => rw [← List.map_id props]
    apply List.map_congr_left
    intro p hp
    obtain ⟨-, -, d, hd, -⟩ := h p hp
    cases p
    simp_all [Property.filled]
  constructor
  · constructor
    case properties =>
      intro other
      cases group <;> cases other <;> first | exact hdefault | exact List.forall_mem_nil _
    all_goals cases group <;> exact List.forall_mem_nil _
  · cases group <;> simp [Members.withProperties, Members.written, hfilled]

end Written

namespace Section

variable {literals : DefaultTable} (hliteral : ∀ type, Entry (literals.literal type))

/-- The columns are stretches of a compact section in which no two quotes stand side by side. -/
structure Cut (s : List Char) (columns : List (List Char)) : Prop where
  tight : Layout.Tight s
  uncut : ';' ∉ s
  stretch : ∀ c ∈ columns, c <:+: s ∧ Text.Unpaired c

variable {s : List Char} {columns : List (List Char)} (h : Cut s columns)

include h

theorem Cut.entry {i : Nat} {e : String} (he : e ∈ itemsOf columns i) (hne : e ≠ "") : Entry e := by
  cases hc : columns[i]? with
  | none => simp [itemsOf, hc] at he
  | some c =>
    obtain ⟨hstretch, hun⟩ := h.stretch c (List.mem_of_getElem? hc)
    have hmem : e ∈ Text.items c := by simpa [itemsOf, hc] using he
    exact Canonical.entry_of_mem_items h.tight h.uncut hstretch hun hmem hne

theorem Cut.param {i j : Nat} {e : String} (he : e ∈ group (groupsOf columns i) j) : Param e := by
  obtain ⟨l, hl, he⟩ := mem_of_mem_group he
  cases hc : columns[i]? with
  | none => simp [groupsOf, hc] at hl
  | some c =>
    obtain ⟨hstretch, hun⟩ := h.stretch c (List.mem_of_getElem? hc)
    have hmem : l ∈ Text.groups c := by simpa [groupsOf, hc] using hl
    exact Canonical.param_of_mem_groups h.tight h.uncut hstretch hun hmem he

theorem Cut.phrase {i : Nat}
    (hne : (columns[i]?.map fun c => String.ofList (Text.trim c)).getD "" ≠ "") :
    Phrase ((columns[i]?.map fun c => String.ofList (Text.trim c)).getD "") := by
  cases hc : columns[i]? with
  | none => simp [hc] at hne
  | some c =>
    obtain ⟨hstretch, hun⟩ := h.stretch c (List.mem_of_getElem? hc)
    rw [hc] at hne
    exact ⟨Canonical.column_trim h.tight h.uncut hstretch hun, hne⟩

theorem Cut.value {i row : Nat} {substitute : String} (hsubstitute : Entry substitute) :
    Entry ((cell (itemsOf columns i) row).getD substitute) :=
  cell_getD hsubstitute fun _ he hne => h.entry he hne

omit h in
theorem forall_mem_namedRows {β : Type} {names : List String} {member : Nat → String → β}
    {P : β → Prop} (h : ∀ row, ∀ name ∈ names, name ≠ "" → P (member row name)) :
    ∀ b ∈ namedRows names member, P b := by
  intro b hb
  obtain ⟨row, name, hname, hne, rfl⟩ := exists_of_mem_namedRows hb
  exact h row name hname hne

theorem canonical_enumeration :
    (enumeration ((columns[0]?.map fun c => String.ofList (Text.trim c)).getD "")
      (itemsOf columns 1)).members.Canonical literals := by
  simp only [enumeration]
  split
  · exact Members.canonical_empty
  split
  · exact Members.canonical_empty
  · rename_i hname hvalues
    refine ⟨{ Members.spelled_empty with enums := fun e he => ?_ }, rfl⟩
    obtain rfl := List.mem_singleton.mp he
    refine ⟨h.phrase hname, hvalues, fun v hv => ?_⟩
    obtain ⟨hmem, hne⟩ := List.mem_filter.mp hv
    exact h.entry hmem (by simpa using hne)

theorem canonical_signals :
    (signals (itemsOf columns 0) (groupsOf columns 1)).members.Canonical literals := by
  simp only [signals]
  refine ⟨{ Members.spelled_empty with signals := ?_ }, rfl⟩
  dsimp only
  exact forall_mem_namedRows fun row name hname hne => ⟨h.entry hname hne, fun p hp => h.param hp⟩

theorem canonical_functions :
    (functions (itemsOf columns 0) (itemsOf columns 1)
      (groupsOf columns 2)).members.Canonical literals := by
  have hvoid : Entry "void" := (show Canonical.Cell "void" by decide +kernel).entry
  simp only [functions]
  refine ⟨{ Members.spelled_empty with functions := ?_ }, ?_⟩
  · dsimp only
    exact forall_mem_namedRows fun row name hname hne =>
      ⟨h.entry hname hne, h.value hvoid, fun p hp => h.param hp⟩
  · simp only [Members.written, map_namedRows, List.map_nil]
    rfl

theorem canonical_components :
    (components (itemsOf columns 0) (itemsOf columns 1)).members.Canonical literals := by
  have hcomponent : Entry "Component" := (show Canonical.Cell "Component" by decide +kernel).entry
  simp only [components]
  refine ⟨{ Members.spelled_empty with components := ?_ }, rfl⟩
  dsimp only
  exact forall_mem_namedRows fun row name hname hne => ⟨h.entry hname hne, h.value hcomponent⟩

theorem canonical_interfaceProps :
    (interfaceProps (itemsOf columns 0) (itemsOf columns 1)
      (itemsOf columns 2)).members.Canonical literals := by
  have hvar : Entry "var" := (show Canonical.Cell "var" by decide +kernel).entry
  simp only [interfaceProps]
  refine ⟨{ Members.spelled_empty with properties := fun group => ?_ }, rfl⟩
  cases group with
  | interface =>
    dsimp only [Members.properties]
    refine forall_mem_namedRows fun row name hname hne =>
      ⟨h.entry hname hne, h.value hvar, fun d hd => ?_⟩
    obtain ⟨hmem, hdefault⟩ := mem_of_cell_eq_some hd
    exact h.entry hmem hdefault
  | _ => exact List.forall_mem_nil _

include hliteral

theorem canonical_constants :
    (constants literals (itemsOf columns 0) (itemsOf columns 1)
      (itemsOf columns 2)).members.Canonical literals := by
  have hvar : Entry "var" := (show Canonical.Cell "var" by decide +kernel).entry
  simp only [constants]
  refine ⟨{ Members.spelled_empty with constants := ?_ }, rfl⟩
  dsimp only
  exact forall_mem_namedRows fun row name hname hne =>
    ⟨h.entry hname hne, h.value hvar, h.value (hliteral _)⟩

theorem canonical_legacyVars :
    (legacyVars literals (itemsOf columns 0) (itemsOf columns 1)).members.Canonical literals := by
  apply Members.canonical_properties .unique
  intro p hp
  obtain ⟨row, name, hname, hne, hrow⟩ := exists_of_mem_namedRows (List.reduceOption_mem_iff.mp hp)
  obtain ⟨type, htype, rfl⟩ := Option.map_eq_some_iff.mp hrow.symm
  obtain ⟨hmem, htypeNe⟩ := mem_of_cell_eq_some htype
  exact ⟨h.entry hname hne, h.entry hmem htypeNe, _, rfl, hliteral type⟩

theorem canonical_properties (group : PropertyGroup) {untyped : String} (huntyped : Entry untyped) :
    (({} : Members).withProperties group (properties literals untyped (itemsOf columns 0)
      (itemsOf columns 1) (itemsOf columns 2))).Canonical literals := by
  apply Members.canonical_properties
  exact forall_mem_namedRows fun row name hname hne =>
    ⟨h.entry hname hne, h.value huntyped, _, rfl, h.value (hliteral _)⟩

theorem canonical_ofTexts (tag : Tag) :
    (ofTexts literals tag columns).members.Canonical literals := by
  have hvar : Entry "var" := (show Canonical.Cell "var" by decide +kernel).entry
  have hbool : Entry "bool" := (show Canonical.Cell "bool" by decide +kernel).entry
  rw [ofTexts_eq]
  cases tag with
  | header => exact Members.canonical_empty
  | flags => exact canonical_properties hliteral h .flags hbool
  | currentProps => exact canonical_properties hliteral h .current hvar
  | uniqueProps => exact canonical_properties hliteral h .unique hvar
  | legacyVars => exact canonical_legacyVars hliteral h
  | signals => exact canonical_signals h
  | functions => exact canonical_functions h
  | constants => exact canonical_constants hliteral h
  | components => exact canonical_components h
  | interfaceProps => exact canonical_interfaceProps h
  | enumeration => exact canonical_enumeration h

end Section

namespace Description

variable {literals : DefaultTable}

theorem canonical_members_ofText (hliteral : ∀ type, Entry (literals.literal type))
    {t : List Char} (h : ';' ∉ t) : (Part.ofText literals t).members.Canonical literals := by
  by_cases hw : ∃ tag, Writes tag t
  · obtain ⟨tag, hw⟩ := hw
    by_cases hheader : tag = .header
    · subst hheader
      rw [Part.members_ofText_of_writes_header hw]
      exact Members.canonical_empty
    · obtain ⟨r, hr⟩ :=
        (Layout.compact_eq_label_iff (isLetter_code tag) (code_ne_nil tag)).mpr hw
      rw [Part.ofText_of_writes hw hheader, hr,
        Section.read_ofText (isLetter_code tag) (code_ne_nil tag), Part.members, Section.readText]
      split
      · exact Members.canonical_empty
      · refine Section.canonical_ofTexts hliteral
          ⟨Layout.tight_compact t, Layout.edge_not_mem_compact (by decide) h, fun c hc => ?_⟩ tag
        obtain ⟨hstretch, hun⟩ := Section.stretch_of_mem_columnsAfterTag hc
        refine ⟨hstretch.trans ?_, hun⟩
        rw [hr]
        exact (List.suffix_append _ _).isInfix
  · rw [(Part.ofText_of_not_writes (not_exists.mp hw)).2]
    exact Members.canonical_empty

/-- The interfaces in a field of a compact header can be written again as they are. -/
theorem entry_of_mem_interfacesOf {s field : List Char} (hs : Layout.Tight s) (hcut : ';' ∉ s)
    (hp : field ∈ Text.pieces (· == '\'') s) {i : String} (hi : i ∈ Header.interfacesOf field) :
    Entry i ∧ '\'' ∉ i.toList := by
  have hquote : '\'' ∉ field := Text.not_mem_of_mem_pieces hp
  obtain ⟨hmem, hne⟩ := List.mem_filter.mp hi
  constructor
  · exact Canonical.entry_of_mem_items hs hcut (Text.infix_of_mem_pieces hp)
      (Text.unpaired_of_not_mem hquote) hmem (by simpa using hne)
  · obtain ⟨piece, hpart, rfl⟩ := List.mem_map.mp hmem
    have hstretch : Text.trim piece <:+: field :=
      (Text.trim_infix piece).trans (Text.infix_of_mem_pieces hpart)
    intro hc
    exact hquote (hstretch.subset (by simpa [Header.trimmedField] using hc))

theorem title_headerOf {t : List Char} (h : ';' ∉ t) (hname : (Part.headerOf t).name ≠ "") :
    Title (Part.headerOf t).name ∧ (∀ p ∈ (Part.headerOf t).parent, Title p) ∧
      ∀ i ∈ (Part.headerOf t).interfaces, Entry i ∧ '\'' ∉ i.toList := by
  have htight := Layout.tight_compact t
  have hcut := Layout.edge_not_mem_compact (by decide) h
  have hpiece : ∀ field ∈ (Segment.ofText (Layout.compact t)).fields.drop 1,
      field ∈ Text.pieces (· == '\'') (Layout.compact t) := by
    intro field hfield
    have hmem := List.mem_of_mem_drop hfield
    rwa [(Segment.lexed_ofText _).fields_eq, Segment.text_ofText] at hmem
  simp only [Part.headerOf, Header.ofSegment] at hname ⊢
  generalize (Segment.ofText (Layout.compact t)).fields.drop 1 = fields at hname hpiece ⊢
  have htitle : ∀ i field, fields[i]? = some field → Header.trimmedField field ≠ "" →
      Title (Header.trimmedField field) := fun i field hfield =>
    Canonical.title_trim htight hcut (hpiece field (List.mem_of_getElem? hfield))
  refine ⟨?_, ?_, ?_⟩
  · cases hf : fields[0]? with
    | none => simp [hf] at hname
    | some field =>
      rw [hf] at hname
      exact htitle 0 field hf hname
  · intro p hp
    cases hf : fields[1]? with
    | none => simp [hf] at hp
    | some field =>
      obtain ⟨rfl, hne⟩ : Header.trimmedField field = p ∧ p ≠ "" := by
        simpa [hf, Option.filter_eq_some_iff] using hp
      exact htitle 1 field hf hne
  · intro i hi
    cases hf : fields[2]? with
    | none => simp [hf] at hi
    | some field =>
      rw [hf] at hi
      exact entry_of_mem_interfacesOf htight hcut (hpiece field (List.mem_of_getElem? hf)) hi

theorem exists_header_of_parse {id s : String} {p : Parsed}
    (h : parse literals id s = .ok p) :
    ∃ t ∈ Text.pieces (· == ';') s.toList, (Part.headerOf t).name ≠ "" ∧
      p.record = (Part.headerOf t).applyTo
        { toMembers := membersOf ((Text.pieces (· == ';') s.toList).map (Part.ofText literals))
          id, name := "" } := by
  obtain ⟨t, index, hsections, hname, rfl⟩ := exists_headerSection_of_parse h
  have hpiece : (Text.pieces (· == ';') s.toList)[index]? = some t :=
    getElem?_of_mem_headerSections (by rw [hsections]; exact List.mem_singleton_self _)
  exact ⟨t, List.mem_of_getElem? hpiece, hname, by rw [parts_eq_map]⟩

/-- A record that was parsed can be written again as it is. -/
theorem canonical_of_parse (hliteral : ∀ type, Entry (literals.literal type)) {id s : String}
    {p : Parsed} (h : parse literals id s = .ok p) :
    p.record.Spelled ∧ p.record.toMembers.written literals = p.record.toMembers ∧
      p.record.kind = ClassKind.infer p.record.name ∧ p.record.position = {} := by
  obtain ⟨t, ht, hname, hrecord⟩ := exists_header_of_parse h
  have hcut : ∀ t ∈ Text.pieces (· == ';') s.toList, ';' ∉ t :=
    fun t ht => Text.not_mem_of_mem_pieces ht
  have hmembers : (membersOf ((Text.pieces (· == ';') s.toList).map
      (Part.ofText literals))).Canonical literals := by
    rw [membersOf_map_ofText]
    apply Members.canonical_concat
    intro m hm
    obtain ⟨u, hu, rfl⟩ := List.mem_map.mp hm
    exact canonical_members_ofText hliteral (hcut u hu)
  obtain ⟨hnameTitle, hparent, hinterfaces⟩ := title_headerOf (hcut t ht) hname
  rw [hrecord]
  exact ⟨⟨hnameTitle, hparent, hinterfaces, hmembers.spelled⟩, hmembers.written, rfl, rfl⟩

end Description

end Blueprint
