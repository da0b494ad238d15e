import Blueprint.Description.Basic
import Blueprint.Proofs.Segment.Stretch

/-!
# Reading within bounds

A description can be read with every access checked: a text is sliced from the source, a token list is
sliced, a column is taken by its number, and each of these fails when there is nothing to take. The
columns a tag needs are the ones that its rows are read from, so such a reading never fails, and what
it reads is the record that the description stands for.
-/

namespace Blueprint

namespace Stretch

variable {α : Type}

def column (columns : List Stretch) (index : Nat) : Except OutOfBounds Stretch :=
  match columns[index]? with
  | some s => return s
  | none => .error (.column index)

/-- The list that is read from a column, which is empty when the column is not there. -/
def optional (read : Stretch → Except OutOfBounds (List α)) (columns : List Stretch) (index : Nat) :
    Except OutOfBounds (List α) :=
  match columns[index]? with
  | some s => read s
  | none => return []

def properties (table : DefaultTable) (tag : Tag) (untyped : String) (head : Stretch)
    (rest : List Stretch) : Except OutOfBounds (List Property × List Omission) := do
  let names ← head.items
  let types ← (← column rest 0).items
  let values ← (← column rest 1).items
  return (Section.properties table untyped names types values,
    Section.tableOmissions tag names [types.length, values.length])

/-- The content of a section from its first column, without the tag, and the columns behind it. -/
def content (table : DefaultTable) (tag : Tag) (head : Stretch) (rest : List Stretch) :
    Except OutOfBounds Section.Content :=
  match tag with
  | .header => return {}
  | .legacyVars => do
    let names ← head.items
    let types ← (← column rest 0).items
    return Section.legacyVars table names types
  | .signals => do
    let names ← head.items
    let params ← (← column rest 0).groups
    return Section.signals names params
  | .functions => do
    let names ← head.items
    let returns ← (← column rest 0).items
    let params ← optional groups rest 1
    return Section.functions names returns params
  | .constants => do
    let names ← head.items
    let types ← (← column rest 0).items
    let values ← (← column rest 1).items
    return Section.constants table names types values
  | .enumeration => do
    let name ← head.trimmed
    let values ← (← column rest 0).items
    return Section.enumeration name values
  | .flags => do
    let (flags, omissions) ← properties table tag "bool" head rest
    return { members := { flags }, omissions }
  | .currentProps => do
    let (currentProps, omissions) ← properties table tag "var" head rest
    return { members := { currentProps }, omissions }
  | .uniqueProps => do
    let (uniqueProps, omissions) ← properties table tag "var" head rest
    return { members := { uniqueProps }, omissions }
  | .interfaceProps => do
    let names ← head.items
    let types ← (← column rest 0).items
    let values ← optional items rest 1
    return Section.interfaceProps names types values
  | .components => do
    let names ← head.items
    let types ← (← column rest 0).items
    return Section.components names types

def read (table : DefaultTable) (tag : Tag) (s : Stretch) : Except OutOfBounds Section.Content := do
  let columns ← s.columns
  if columns.length < tag.columnsNeeded then
    return { omissions := [.shortSection tag columns.length tag.columnsNeeded] }
  else
    let head ← (← column columns 0).withoutTag
    let rest ← slicePositions columns 1 columns.length
    content table tag head rest

/-- What the fields of a header say. The first one is the tag. -/
def header (s : Stretch) : Except OutOfBounds Header := do
  let fields := (← s.fields).map String.toList
  return {
    name := (fields[1]?.map Header.trimmedField).getD ""
    parent := (fields[2]?.map Header.trimmedField).filter (· ≠ "")
    interfaces := (fields[3]?.map Header.interfacesOf).getD [] }

/-- What a section without a tag is known by: its label, or else its text. -/
def unknownLabel (s : Stretch) : Except OutOfBounds String := do
  match ← s.label? with
  | some label => return label
  | none => s.trimmed

def part (table : DefaultTable) (s : Stretch) : Except OutOfBounds Description.Part := do
  if s.isBlank then return .blank
  else match ← s.tag? with
    | none => return .unknown (← s.unknownLabel)
    | some .header => return .header (← s.header)
    | some tag => return .content (← s.read table tag)

def parts (table : DefaultTable) (source : String) : Except OutOfBounds (List Description.Part) := do
  (← (ofText (String.ofList (Layout.compact source.toList))).cut .sectionMark).mapM (part table)

/-- The record that a description stands for, read with checked accesses. -/
def parse (table : DefaultTable) (id : String) (source : String) :
    Except OutOfBounds (Except HeaderFault Parsed) := do
  let ps ← parts table source
  match Description.headers ps with
  | [] => return .error .missing
  | [(header, index)] =>
    if header.name = "" then return .error (.unnamed index)
    else
      let record : ClassRecord := { toMembers := Description.membersOf ps, id, name := "" }
      return .ok ⟨header.applyTo record, Description.diagnosticsOf ps⟩
  | (_, first) :: (_, index) :: _ => return .error (.repeated first index)

end Stretch

namespace Segment

section Columns

variable {source : String} {head : Segment} {rest : List Segment}

theorem column_stretch (source : String) {columns : List Segment} {index : Nat} {s : Segment}
    (h : columns[index]? = some s) :
    Stretch.column (columns.map (stretch source)) index = .ok (s.stretch source) := by
  rw [Stretch.column, List.getElem?_map, h]
  rfl

theorem optional_items_stretch (h : ∀ s ∈ rest, Within source.toList s) (index : Nat) :
    Stretch.optional Stretch.items (rest.map (stretch source)) index =
      .ok (Section.itemsAt rest index) := by
  rw [Stretch.optional, List.getElem?_map, Section.itemsAt]
  cases hs : rest[index]? with
  | none => rfl
  | some s => exact items_stretch (h s (List.mem_of_getElem? hs))

theorem optional_groups_stretch (h : ∀ s ∈ rest, Within source.toList s) (index : Nat) :
    Stretch.optional Stretch.groups (rest.map (stretch source)) index =
      .ok (Section.groupsAt rest index) := by
  rw [Stretch.optional, List.getElem?_map, Section.groupsAt]
  cases hs : rest[index]? with
  | none => rfl
  | some s => exact groups_stretch (h s (List.mem_of_getElem? hs))

theorem properties_stretch (table : DefaultTable) (tag : Tag) (untyped : String)
    (hhead : Within source.toList head) (hrest : ∀ s ∈ rest, Within source.toList s)
    (hcount : 2 ≤ rest.length) :
    Stretch.properties table tag untyped (head.stretch source) (rest.map (stretch source)) =
      .ok (Section.properties table untyped head.items (Section.itemsAt rest 0)
          (Section.itemsAt rest 1),
        Section.tableOmissions tag head.items
          [(Section.itemsAt rest 0).length, (Section.itemsAt rest 1).length]) := by
  obtain _ | ⟨second, _ | ⟨third, more⟩⟩ := rest
  · simp at hcount
  · simp at hcount
  · have hsecond := items_stretch (hrest second (by simp))
    have hthird := items_stretch (hrest third (by simp))
    rw [Stretch.properties, items_stretch hhead, column_stretch source (s := second) rfl,
      column_stretch source (s := third) rfl]
    simp only [bind, Except.bind, hsecond, hthird]
    rfl

/-- The columns that a tag needs are all that its rows are read from. -/
theorem content_stretch (table : DefaultTable) {tag : Tag} (hhead : Within source.toList head)
    (hrest : ∀ s ∈ rest, Within source.toList s) (hcount : tag.columnsNeeded ≤ rest.length + 1) :
    Stretch.content table tag (head.stretch source) (rest.map (stretch source)) =
      .ok (Section.ofColumns table tag (head :: rest)) := by
  have hnames := items_stretch hhead
  have htitle := trimmed_stretch hhead
  cases tag with
  | header => rfl
  | flags | currentProps | uniqueProps =>
    have hcount : 2 ≤ rest.length := Nat.le_of_succ_le_succ hcount
    rw [Stretch.content, properties_stretch table _ _ hhead hrest hcount]
    rfl
  | constants =>
    obtain _ | ⟨second, _ | ⟨third, more⟩⟩ := rest
    · simp [Tag.columnsNeeded] at hcount
    · simp [Tag.columnsNeeded] at hcount
    · have hsecond := items_stretch (hrest second (by simp))
      have hthird := items_stretch (hrest third (by simp))
      rw [Stretch.content, hnames, column_stretch source (s := second) rfl,
        column_stretch source (s := third) rfl]
      simp only [bind, Except.bind, hsecond, hthird]
      rfl
  | _ =>
    obtain _ | ⟨second, more⟩ := rest
    · simp [Tag.columnsNeeded] at hcount
    · have hsecond := items_stretch (hrest second (by simp))
      have hgroups := groups_stretch (hrest second (by simp))
      have hthirdItems := optional_items_stretch hrest 1
      have hthirdGroups := optional_groups_stretch hrest 1
      rw [Stretch.content, column_stretch source (s := second) rfl]
      simp only [bind, Except.bind, hnames, htitle, hsecond, hgroups, hthirdItems, hthirdGroups]
      rfl

end Columns

section Parts

variable {source : String} {s : Segment}

theorem exists_columns (s : Segment) : ∃ head rest, s.columns = head :: rest :=
  ⟨_, _, rfl⟩

theorem read_stretch (table : DefaultTable) (tag : Tag) (h : Within source.toList s) :
    (s.stretch source).read table tag = .ok (Section.read table tag s) := by
  obtain ⟨head, rest, hcolumns⟩ := exists_columns s
  have hwithin : ∀ part ∈ head :: rest, Within source.toList part :=
    fun part hpart => h.of_mem_cut (show part ∈ s.columns from hcolumns ▸ hpart)
  have hcut : (s.stretch source).columns = .ok ((head :: rest).map (stretch source)) := by
    rw [← hcolumns]
    exact cut_stretch source .columnMark s
  rw [Stretch.read, hcut, Section.read, hcolumns]
  simp only [bind, Except.bind, List.length_map]
  by_cases hcount : (head :: rest).length < tag.columnsNeeded
  · rw [if_pos hcount, if_pos hcount]
    rfl
  · have hrest : slicePositions ((head :: rest).map (stretch source)) 1 (head :: rest).length =
        .ok (rest.map (stretch source)) := by
      have hslice := slicePositions_append [head.stretch source] (rest.map (stretch source)) []
      simpa [Nat.add_comm] using hslice
    have hcontent := content_stretch table
      (hwithin head List.mem_cons_self).withoutTag
      (fun part hpart => hwithin part (List.mem_cons_of_mem head hpart)) (Nat.le_of_not_lt hcount)
    rw [if_neg hcount, if_neg hcount, column_stretch source (s := head) rfl]
    simp only [withoutTag_stretch, hrest, hcontent, List.modifyHead_cons]

theorem header_stretch (h : Within source.toList s) :
    (s.stretch source).header = .ok (Header.ofSegment s) := by
  have hletters : (s.fields.map String.ofList).map String.toList = s.fields := by
    simp [Function.comp_def]
  rw [Stretch.header, fields_stretch h]
  simp only [bind, Except.bind, hletters, Header.ofSegment, List.getElem?_drop]
  rfl

theorem unknownLabel_stretch (h : Within source.toList s) :
    (s.stretch source).unknownLabel = .ok (s.label?.getD s.trimmed) := by
  rw [Stretch.unknownLabel, label?_stretch h, trimmed_stretch h]
  cases s.label? <;> rfl

theorem part_stretch (table : DefaultTable) (h : Within source.toList s) :
    (s.stretch source).part table = .ok (Description.Part.ofSegment table s) := by
  rw [Stretch.part, isBlank_stretch, Description.Part.ofSegment]
  by_cases hblank : s.isBlank = true
  · rw [if_pos hblank, if_pos hblank]
    rfl
  · rw [if_neg hblank, if_neg hblank, tag?_stretch h]
    cases htag : s.tag? with
    | none => simp only [bind, Except.bind, unknownLabel_stretch h]; rfl
    | some tag =>
      cases tag with
      | header => simp only [bind, Except.bind, header_stretch h]; rfl
      | _ => simp only [bind, Except.bind, read_stretch table _ h]; rfl

end Parts

end Segment

namespace Stretch

theorem mapM_part (table : DefaultTable) (source : String) :
    ((Segment.sections source.toList).map (Segment.stretch source)).mapM (part table) =
      .ok ((Segment.sections source.toList).map (Description.Part.ofSegment table)) := by
  have hwithin : Segment.Within source.toList (Segment.ofText source.toList) :=
    Segment.Reached.whole.within
  rw [List.mapM_map]
  exact mapM_eq_ok fun s hs => Segment.part_stretch table (hwithin.of_mem_cut hs)

theorem parts_eq (table : DefaultTable) (source : String) :
    parts table source = .ok (Description.parts table source.toList) := by
  have hparts := mapM_part table (String.ofList (Layout.compact source.toList))
  rw [Segment.sections, String.toList_ofList] at hparts
  rw [parts, ← Segment.stretch_ofText, Segment.cut_stretch, String.toList_ofList]
  exact hparts

/-- Reading with checked accesses never fails, and it reads the same. -/
theorem parse_eq (table : DefaultTable) (id source : String) :
    parse table id source = .ok (Description.parse table id source) := by
  rw [parse, parts_eq, Description.parse]
  simp only [bind, Except.bind]
  cases Description.headers (Description.parts table source.toList) with
  | nil => rfl
  | cons first more =>
    cases more with
    | nil => exact (apply_ite Except.ok _ _ _).symm
    | cons => rfl

/-- Whatever is cut from a source, and however often, lies in it between characters and is filled by
its tokens, so that all its slices are there. No access that is made while the source is read is out of
bounds. -/
theorem reading_in_bounds (source : String) :
    (∀ x, Reached source x ↔
        ∃ s, Segment.Reached source.toList s ∧ x = s.stretch source) ∧
      (∀ s, Segment.Reached source.toList s →
        (s.stretch source).Sound ∧
        (s.stretch source).text = .ok (String.ofList s.text) ∧
        (s.stretch source).label? = .ok s.label? ∧
        (s.stretch source).fields = .ok (s.fields.map String.ofList) ∧
        (∀ kind, (s.stretch source).cut kind = .ok ((s.cut kind).map (Segment.stretch source))) ∧
        (s.stretch source).withoutTag = .ok (s.withoutTag.stretch source) ∧
        (s.stretch source).trimmed = .ok s.trimmed ∧
        (s.stretch source).isBlank = s.isBlank ∧
        (s.isBlank = true ↔ s.trimmed = "")) ∧
      ∀ table id, parse table id source = .ok (Description.parse table id source) := by
  refine ⟨fun x => ⟨Reached.exists_segment, ?_⟩, fun s hs => ?_, fun table id => ?_⟩
  · rintro ⟨s, hs, rfl⟩
    exact Reached.of_segment hs
  · have hwithin := hs.within
    exact ⟨Segment.sound_stretch hwithin hs.lexed, Segment.text_stretch hwithin,
      Segment.label?_stretch hwithin, Segment.fields_stretch hwithin,
      fun kind => Segment.cut_stretch source kind s, Segment.withoutTag_stretch source s,
      Segment.trimmed_stretch hwithin, Segment.isBlank_stretch source s,
      hs.lexed.isBlank_iff_trimmed⟩
  · exact parse_eq table id source

/-- The second column of an enumeration, behind letters of two bytes. -/
theorem reading_in_bounds_accented :
    ∃ s, Segment.Reached "en'É''Ä,b".toList s ∧ (s.stretch "en'É''Ä,b").Sound ∧
      s.stretch "en'É''Ä,b" =
        ⟨"en'É''Ä,b", 7, 11, [⟨.word, 7, 9⟩, ⟨.comma, 9, 10⟩, ⟨.word, 10, 11⟩]⟩ ∧
      (s.stretch "en'É''Ä,b").text = .ok "Ä,b" := by
  have hreached : Segment.Reached "en'É''Ä,b".toList ⟨7, [.word ['Ä'], .comma, .word ['b']]⟩ :=
    @Segment.Reached.cut _ _ _ .columnMark .whole (by decide +kernel)
  obtain ⟨-, hall, -⟩ := reading_in_bounds "en'É''Ä,b"
  obtain ⟨hsound, htext, -⟩ := hall _ hreached
  exact ⟨_, hreached, hsound, rfl, htext⟩

end Stretch

end Blueprint
