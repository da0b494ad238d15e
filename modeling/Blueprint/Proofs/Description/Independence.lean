import Blueprint.Proofs.Description.Parts
import Blueprint.Proofs.Record.Members

/-!
# Independence of sections

The sections of a description do not know of each other. The header alone gives the name, kind,
parent and interfaces, wherever it stands, and every other section adds to one list of members what
it would add behind any header. So sections that feed different lists can change places, and a
section without a tag can be put anywhere.
-/

namespace Blueprint

namespace Tag

theorem mem_all (tag : Tag) : tag ∈ all := by
  cases tag <;> decide

/-- The list that a section with this tag adds to. -/
def list? : Tag → Option MemberList
  | header => none
  | legacyVars | uniqueProps => some (.properties .unique)
  | signals => some .signals
  | functions => some .functions
  | constants => some .constants
  | enumeration => some .enums
  | flags => some (.properties .flags)
  | currentProps => some (.properties .current)
  | interfaceProps => some (.properties .interface)
  | components => some .components

end Tag

theorem Section.only_members_ofColumns {table : DefaultTable} {tag : Tag} {list : MemberList}
    (h : tag.list? ≠ some list) (columns : List Segment) :
    (ofColumns table tag columns).members.only list = {} := by
  cases tag with
  | enumeration =>
    have hlist : list ≠ .enums := fun hl => h (by rw [hl]; rfl)
    simp only [ofColumns, enumeration]
    split
    · simp
    split
    · simp
    · cases list with
      | enums => exact absurd rfl hlist
      | properties group => cases group <;> rfl
      | _ => rfl
  | _ =>
    cases list with
    | properties group => cases group <;> first | rfl | exact absurd rfl h
    | _ => first | rfl | exact absurd rfl h

namespace Description

open Text (isBlank)
open Layout (compact)

/-- The text is a section that adds to the list. -/
def Feeds (list : MemberList) (t : List Char) : Prop :=
  ∃ tag ∈ Tag.all, tag.list? = some list ∧ Writes tag t

def Tagged (t : List Char) : Prop :=
  ∃ tag ∈ Tag.all, Writes tag t

instance (list : MemberList) (t : List Char) : Decidable (Feeds list t) :=
  inferInstanceAs (Decidable (∃ tag ∈ Tag.all, _))

instance (t : List Char) : Decidable (Tagged t) :=
  inferInstanceAs (Decidable (∃ tag ∈ Tag.all, _))

theorem Feeds.tagged {list : MemberList} {t : List Char} (h : Feeds list t) : Tagged t := by
  obtain ⟨tag, hmem, -, hw⟩ := h
  exact ⟨tag, hmem, hw⟩

theorem Writes.tagged {tag : Tag} {t : List Char} (h : Writes tag t) : Tagged t :=
  ⟨tag, tag.mem_all, h⟩

namespace Part

variable {table : DefaultTable}

theorem only_members_ofText {list : MemberList} {t : List Char} (h : ¬Feeds list t) :
    (ofText table t).members.only list = {} := by
  by_cases ht : ∃ tag, Writes tag t
  · obtain ⟨tag, hw⟩ := ht
    have hlist : tag.list? ≠ some list := fun hl => h ⟨tag, tag.mem_all, hl, hw⟩
    by_cases hheader : tag = .header
    · subst hheader
      simp [ofText_of_writes_header hw, members]
    · rw [ofText_of_writes hw hheader, members, Section.read]
      split
      · simp
      · exact Section.only_members_ofColumns hlist _
  · simp [(ofText_of_not_writes (not_exists.mp ht)).2]

theorem omissions_ofText_of_writes_header {t : List Char} (h : Writes .header t) :
    (ofText table t).omissions = [] := by
  rw [ofText_of_writes_header h]
  rfl

theorem members_ofText_of_writes_header {t : List Char} (h : Writes .header t) :
    (ofText table t).members = {} := by
  rw [ofText_of_writes_header h]
  rfl

end Part

section Folds

variable {table : DefaultTable}

theorem membersOf_map_ofText (table : DefaultTable) (ts : List (List Char)) :
    membersOf (ts.map (Part.ofText table)) =
      Members.concat (ts.map fun t => (Part.ofText table t).members) := by
  simp only [membersOf, Members.concat, List.foldr_map]

/-- A list of the record depends only on the sections that feed it. -/
theorem only_membersOf (ts : List (List Char)) (list : MemberList) :
    (membersOf (ts.map (Part.ofText table))).only list =
      Members.concat
        ((ts.filter (Feeds list ·)).map fun t => (Part.ofText table t).members.only list) := by
  rw [membersOf_map_ofText, Members.only_concat, List.map_map, Members.concat_map_filter]
  · rfl
  · intro t _ ht
    exact Part.only_members_ofText (by simpa using ht)

theorem membersOf_congr {ts ts' : List (List Char)}
    (h : ∀ list, ts'.filter (Feeds list ·) = ts.filter (Feeds list ·)) :
    membersOf (ts'.map (Part.ofText table)) = membersOf (ts.map (Part.ofText table)) := by
  refine Members.ext_only fun list => ?_
  rw [only_membersOf, only_membersOf, h]

theorem membersOf_filter (ts : List (List Char)) :
    membersOf (ts.map (Part.ofText table)) =
      Members.concat ((ts.filter (¬Writes .header ·)).map
        fun t => (Part.ofText table t).members) := by
  rw [membersOf_map_ofText, Members.concat_map_filter]
  intro t _ ht
  exact Part.members_ofText_of_writes_header (by simpa using ht)

theorem diagnosticsOf_filter (ts : List (List Char)) :
    diagnosticsOf (ts.map (Part.ofText table)) =
      (ts.zipIdx.filter fun ti => ¬Writes .header ti.1).flatMap
        fun ti => (Part.ofText table ti.1).omissions.map (⟨ti.2, ·⟩) := by
  rw [diagnosticsOf, zipIdx_map_ofText, List.flatMap_map]
  induction ts.zipIdx with
  | nil => rfl
  | cons ti rest ih =>
    by_cases hw : Writes .header ti.1
    · simp [hw, ih, Part.omissions_ofText_of_writes_header hw]
    · simp [hw, ih]

theorem map_fst_headers (ps : List Part) :
    (headers ps).map Prod.fst = ps.filterMap Part.header? := by
  have hfst : ps.zipIdx.map Prod.fst = ps := by simp
  conv_rhs => rw [← hfst]
  rw [headers, List.map_filterMap, List.filterMap_map]
  refine List.filterMap_congr fun pi _ => ?_
  cases h : pi.1.header? <;> simp [h]

theorem filterMap_header?_map_ofText (ts : List (List Char)) :
    (ts.map (Part.ofText table)).filterMap Part.header? =
      (ts.filter (Writes .header ·)).map Part.headerOf := by
  induction ts with
  | nil => rfl
  | cons t rest ih =>
    by_cases hw : Writes .header t <;> simp [hw, ih, Part.header?_ofText]

end Folds

theorem filter_congr_of_tagged {ts ts' : List (List Char)} {p : List Char → Prop} [DecidablePred p]
    (h : ts'.filter (Tagged ·) = ts.filter (Tagged ·)) (hp : ∀ t, p t → Tagged t) :
    ts'.filter (p ·) = ts.filter (p ·) := by
  have hthrough : ∀ us : List (List Char),
      us.filter (p ·) = (us.filter (Tagged ·)).filter (p ·) := by
    intro us
    rw [List.filter_filter]
    refine List.filter_congr fun t _ => ?_
    by_cases hpt : p t <;> simp [hpt, hp]
  rw [hthrough ts', hthrough ts, h]

/-- The texts can be sections, the one header among them is `head`, and it has a name. -/
structure OneHeader (ts : List (List Char)) (head : List Char) : Prop where
  cut : ∀ t ∈ ts, ';' ∉ t
  header : ts.filter (Writes .header ·) = [head]
  named : ∃ c ∈ nameField head, isBlank c = false

def joinSections (ts : List (List Char)) : String :=
  String.ofList ([';'].intercalate ts)

/-- The field with this number in a section. Field 0 stands in front of the first quote. -/
def field (t : List Char) (i : Nat) : List Char :=
  (Text.pieces (· == '\'') (compact t))[i]?.getD []

/-- The record has the name, the parent and the interfaces that stand in the fields of the section,
and the kind of that name. -/
structure Heads (t : List Char) (r : ClassRecord) : Prop where
  name : r.name = String.ofList (Text.trim (field t 1))
  kind : r.kind = ClassKind.infer (String.ofList (Text.trim (field t 1)))
  parent : ∀ p, r.parent = some p ↔ p ≠ "" ∧ p = String.ofList (Text.trim (field t 2))
  interfaces : r.interfaces = (Text.items (field t 3)).filter (· ≠ "")

/-- A header writes its own fields into a record, whatever the record is. -/
theorem heads_applyTo (t : List Char) (r : ClassRecord) :
    Heads t ((Part.headerOf t).applyTo r) := by
  have hfields : (Segment.ofText (compact t)).fields = Text.pieces (· == '\'') (compact t) := by
    rw [(Segment.lexed_ofText _).fields_eq, Segment.text_ofText]
  have hname : (Part.headerOf t).name = String.ofList (Text.trim (field t 1)) := by
    simp only [Part.headerOf, Header.ofSegment, hfields, List.getElem?_drop, field]
    cases (Text.pieces (· == '\'') (compact t))[1]? <;> rfl
  refine ⟨hname, congrArg ClassKind.infer hname, fun p => ?_, ?_⟩
  · simp only [Header.applyTo, Part.headerOf, Header.ofSegment, hfields, List.getElem?_drop,
      Nat.reduceAdd, field]
    cases (Text.pieces (· == '\'') (compact t))[2]? with
    | none => simp +contextual
    | some parent =>
      rw [Option.filter_eq_some_iff]
      constructor
      · rintro ⟨hp, hne⟩
        exact ⟨by simpa using hne, (Option.some.inj hp).symm⟩
      · rintro ⟨hne, rfl⟩
        exact ⟨rfl, by simpa using hne⟩
  · simp only [Header.applyTo, Part.headerOf, Header.ofSegment, hfields, List.getElem?_drop,
      Nat.reduceAdd, field]
    cases (Text.pieces (· == '\'') (compact t))[3]? <;> rfl

namespace OneHeader

variable {table : DefaultTable} {ts : List (List Char)} {head : List Char}

theorem ne_nil (h : OneHeader ts head) : ts ≠ [] := by
  rintro rfl
  have hnil := h.header
  simp at hnil

theorem mem (h : OneHeader ts head) : head ∈ ts ∧ Writes .header head := by
  have hmem : head ∈ ts.filter (Writes .header ·) := by simp [h.header]
  simpa using hmem

theorem alone (h : OneHeader ts head) : OneHeader [head] head where
  cut := by simpa using h.cut head h.mem.1
  header := by simp [h.mem.2]
  named := h.named

/-- The sections of a description with one named header decide what is read from it. -/
theorem parse_eq (h : OneHeader ts head) (id : String) :
    parse table id (joinSections ts) =
      .ok ⟨(Part.headerOf head).applyTo
          { toMembers := membersOf (ts.map (Part.ofText table)), id, name := "" },
        diagnosticsOf (ts.map (Part.ofText table))⟩ := by
  have hparts : parts table (joinSections ts).toList = ts.map (Part.ofText table) := by
    rw [parts_eq_map, joinSections, String.toList_ofList, Text.pieces_intercalate h.ne_nil h.cut]
  have hheaders : (headers (ts.map (Part.ofText table))).map Prod.fst = [Part.headerOf head] := by
    rw [map_fst_headers, filterMap_header?_map_ofText, h.header, List.map_singleton]
  obtain ⟨index, hindex⟩ : ∃ index,
      headers (ts.map (Part.ofText table)) = [(Part.headerOf head, index)] := by
    obtain ⟨⟨x, index⟩, hx, hfst⟩ := List.map_eq_singleton_iff.mp hheaders
    exact ⟨index, by rw [hx, ← hfst]⟩
  have hname : (Part.headerOf head).name ≠ "" := by
    rw [Ne, Part.name_headerOf_eq_empty_iff]
    obtain ⟨c, hc, hblank⟩ := h.named
    exact fun hall => absurd (hall c hc) (by simp [hblank])
  simp only [parse, hparts, hindex, hname, if_false]

theorem parse_header (h : OneHeader ts head) (id : String) :
    parse table id (String.ofList head) =
      .ok ⟨(Part.headerOf head).applyTo
          { toMembers := membersOf ([head].map (Part.ofText table)), id, name := "" },
        diagnosticsOf ([head].map (Part.ofText table))⟩ := by
  have hjoin : joinSections [head] = String.ofList head := by simp [joinSections]
  rw [← hjoin]
  exact h.alone.parse_eq id

theorem of_perm (h : OneHeader ts head) {ts' : List (List Char)} (hperm : ts'.Perm ts) :
    OneHeader ts' head where
  cut t ht := h.cut t (hperm.mem_iff.mp ht)
  header := by
    have hheaders := hperm.filter (Writes .header ·)
    rw [h.header] at hheaders
    exact List.perm_singleton.mp hheaders
  named := h.named

theorem of_tagged (h : OneHeader ts head) {ts' : List (List Char)} (hcut : ∀ t ∈ ts', ';' ∉ t)
    (htagged : ts'.filter (Tagged ·) = ts.filter (Tagged ·)) : OneHeader ts' head where
  cut := hcut
  header := by rw [filter_congr_of_tagged htagged fun _ => Writes.tagged, h.header]
  named := h.named

/-- Another description with the same header and the same sections for each list gives the same
record under its own id. -/
theorem record_eq (h : OneHeader ts head) {ts' : List (List Char)} (h' : OneHeader ts' head)
    (hfeeds : ∀ list, ts'.filter (Feeds list ·) = ts.filter (Feeds list ·)) {id id' : String}
    {p : Parsed} (hp : parse table id (joinSections ts) = .ok p) :
    ∃ p', parse table id' (joinSections ts') = .ok p' ∧
      p'.record = { p.record with id := id' } := by
  obtain rfl := Except.ok.inj ((h.parse_eq id).symm.trans hp)
  refine ⟨_, h'.parse_eq id', ?_⟩
  rw [membersOf_congr hfeeds]
  rfl

end OneHeader

def behindHeader (t : List Char) : List (List Char) :=
  ["Cl'X".toList, t]

theorem joinSections_behindHeader (t : List Char) :
    joinSections (behindHeader t) = String.ofList ("Cl'X;".toList ++ t) := by
  simp [joinSections, behindHeader, List.intercalate]

theorem oneHeader_behindHeader {t : List Char} (hcut : ';' ∉ t) (hw : ¬Writes .header t) :
    OneHeader (behindHeader t) "Cl'X".toList where
  cut := by
    intro u hu
    rcases List.mem_pair.mp hu with rfl | rfl
    · decide
    · exact hcut
  header := by
    have hx : Writes .header "Cl'X".toList := by decide +kernel
    simp only [behindHeader, List.filter_cons, hx, hw, decide_true, decide_false, if_true,
      List.filter_nil]
    rfl
  named := ⟨'X', by decide +kernel, by decide⟩

/-- A section behind another header gives its members and its omissions. -/
theorem parse_behindHeader {table : DefaultTable} {t : List Char} (hcut : ';' ∉ t)
    (hw : ¬Writes .header t) (id : String) :
    ∃ q, parse table id (String.ofList ("Cl'X;".toList ++ t)) = .ok q ∧
      q.record.toMembers = (Part.ofText table t).members ∧
      q.diagnostics = (Part.ofText table t).omissions.map (⟨1, ·⟩) := by
  have hx : Writes .header "Cl'X".toList := by decide +kernel
  have hmembers : (Part.ofText table "Cl'X".toList).members = {} :=
    Part.members_ofText_of_writes_header hx
  have homissions : (Part.ofText table "Cl'X".toList).omissions = [] :=
    Part.omissions_ofText_of_writes_header hx
  rw [← joinSections_behindHeader]
  refine ⟨_, (oneHeader_behindHeader hcut hw).parse_eq id, ?_, ?_⟩
  · change (Part.ofText table "Cl'X".toList).members ++ ((Part.ofText table t).members ++ {}) = _
    rw [hmembers, Members.empty_append, Members.append_empty]
  · change (Part.ofText table "Cl'X".toList).omissions.map (Diagnostic.mk 0) ++
      ((Part.ofText table t).omissions.map (Diagnostic.mk 1) ++ []) = _
    rw [homissions, List.map_nil, List.nil_append, List.append_nil]

theorem exists_alone {table : DefaultTable} {ts : List (List Char)} (hcut : ∀ t ∈ ts, ';' ∉ t)
    (id : String) :
    ∃ alone : List Char → Parsed, ∀ t ∈ ts, ¬Writes .header t →
      parse table id (String.ofList ("Cl'X;".toList ++ t)) = .ok (alone t) ∧
        (alone t).record.toMembers = (Part.ofText table t).members ∧
        (alone t).diagnostics = (Part.ofText table t).omissions.map (⟨1, ·⟩) := by
  have hsingle : ∀ t, ∃ q, t ∈ ts → ¬Writes .header t →
      parse table id (String.ofList ("Cl'X;".toList ++ t)) = .ok q ∧
        q.record.toMembers = (Part.ofText table t).members ∧
        q.diagnostics = (Part.ofText table t).omissions.map (⟨1, ·⟩) := by
    intro t
    by_cases ht : t ∈ ts ∧ ¬Writes .header t
    · obtain ⟨q, hq⟩ := parse_behindHeader (hcut t ht.1) ht.2 id
      exact ⟨q, fun _ _ => hq⟩
    · exact ⟨⟨{ id, name := "" }, []⟩, fun hmem hw => absurd ⟨hmem, hw⟩ ht⟩
  choose alone halone using hsingle
  exact ⟨alone, halone⟩

/-- Sections are independent. A description with one named header gives a record. Its name, parent and
interfaces are those in the fields of the header and its kind is that of its name, as when the header
is parsed alone, and its members and diagnostics are those that the other sections have behind any
header, in order and with their own positions. So the sections can be put in any order that keeps the
order of those that feed one list, and sections without a tag can be added or left out, without a
change to the record. -/
theorem parse_joinSections (table : DefaultTable) (id id' : String) {ts : List (List Char)}
    {head : List Char} (h : OneHeader ts head) :
    ∃ p, parse table id (joinSections ts) = .ok p ∧ Heads head p.record ∧
      (∃ q, parse table id' (String.ofList head) = .ok q ∧
        p.record.name = q.record.name ∧ p.record.kind = q.record.kind ∧
        p.record.parent = q.record.parent ∧ p.record.interfaces = q.record.interfaces) ∧
      (∃ alone : List Char → Parsed,
        (∀ t ∈ ts, ¬Writes .header t →
          parse table id' (String.ofList ("Cl'X;".toList ++ t)) = .ok (alone t) ∧
            ∀ d ∈ (alone t).diagnostics, d.index = 1) ∧
        p.record.toMembers =
          Members.concat ((ts.filter (¬Writes .header ·)).map fun t => (alone t).record.toMembers) ∧
        p.diagnostics = (ts.zipIdx.filter fun ti => ¬Writes .header ti.1).flatMap
          fun ti => (alone ti.1).diagnostics.map fun d => { d with index := ti.2 }) ∧
      (∀ ts' : List (List Char), ts'.Perm ts →
        (∀ list, ts'.filter (Feeds list ·) = ts.filter (Feeds list ·)) →
        ∃ p', parse table id' (joinSections ts') = .ok p' ∧
          p'.record = { p.record with id := id' }) ∧
      ∀ ts' : List (List Char), (∀ t ∈ ts', ';' ∉ t) →
        ts'.filter (Tagged ·) = ts.filter (Tagged ·) →
        ∃ p', parse table id' (joinSections ts') = .ok p' ∧
          p'.record = { p.record with id := id' } := by
  refine ⟨_, h.parse_eq id, heads_applyTo head _, ⟨_, h.parse_header id', rfl, rfl, rfl, rfl⟩,
    ?_, ?_, ?_⟩
  · obtain ⟨alone, halone⟩ := exists_alone h.cut id'
    refine ⟨alone, fun t ht hw => ⟨(halone t ht hw).1, ?_⟩, ?_, ?_⟩
    · intro d hd
      rw [(halone t ht hw).2.2] at hd
      obtain ⟨o, -, rfl⟩ := List.mem_map.mp hd
      rfl
    · refine (membersOf_filter ts).trans (congrArg Members.concat ?_)
      refine List.map_congr_left fun t ht => ?_
      obtain ⟨hmem, hw⟩ : t ∈ ts ∧ ¬Writes .header t := by simpa using ht
      exact (halone t hmem hw).2.1.symm
    · refine (diagnosticsOf_filter ts).trans (List.flatMap_congr fun ti hti => ?_)
      obtain ⟨hmem, hw⟩ : ti ∈ ts.zipIdx ∧ ¬Writes .header ti.1 := by simpa using hti
      rw [(halone ti.1 (List.fst_mem_of_mem_zipIdx hmem) hw).2.2, List.map_map]
      rfl
  · intro ts' hperm hfeeds
    exact h.record_eq (h.of_perm hperm) hfeeds (h.parse_eq id)
  · intro ts' hcut htagged
    have hfeeds : ∀ list, ts'.filter (Feeds list ·) = ts.filter (Feeds list ·) :=
      fun list => filter_congr_of_tagged htagged fun _ => Feeds.tagged
    exact h.record_eq (h.of_tagged hcut htagged) hfeeds (h.parse_eq id)

theorem parse_joinSections_around_header :
    ∃ p, parse .engine "dsl_1" (joinSections
        ["cn'A''int''1".toList, "Cl ' IB ' C ' I , ,J".toList, "cv'x''int".toList,
          "zz'".toList]) = .ok p ∧
      p.record.name = "IB" ∧ p.record.kind = .interface ∧ p.record.parent = some "C" ∧
      p.record.interfaces = ["I", "J"] ∧
      ∃ p', parse .engine "dsl_2" (joinSections
          ["cv'x''int".toList, "cn'A''int''1".toList, "zz'".toList,
            "Cl ' IB ' C ' I , ,J".toList]) = .ok p' ∧
        p'.record = { p.record with id := "dsl_2" } := by
  have h : OneHeader
      ["cn'A''int''1".toList, "Cl ' IB ' C ' I , ,J".toList, "cv'x''int".toList, "zz'".toList]
      "Cl ' IB ' C ' I , ,J".toList :=
    ⟨by decide, by decide +kernel, 'B', by decide +kernel, by decide⟩
  obtain ⟨p, hp, hheads, -, -, hperm, -⟩ := parse_joinSections .engine "dsl_1" "dsl_2" h
  obtain ⟨p', hp', hrecord⟩ := hperm
    ["cv'x''int".toList, "cn'A''int''1".toList, "zz'".toList, "Cl ' IB ' C ' I , ,J".toList]
    (by decide) (by
      intro list
      cases list with
      | properties group => cases group <;> decide +kernel
      | _ => decide +kernel)
  refine ⟨p, hp, ?_, ?_, (hheads.parent "C").mpr ⟨by decide, by decide +kernel⟩, ?_, p', hp', hrecord⟩
  · rw [hheads.name]
    decide +kernel
  · rw [hheads.kind]
    decide +kernel
  · rw [hheads.interfaces]
    decide +kernel

end Description

end Blueprint
