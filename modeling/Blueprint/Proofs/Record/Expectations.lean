import Blueprint.Proofs.Record.Members
import Blueprint.Record.Expectation

/-!
# What expectations say of a record

The expectations that describe a record are met by the records that agree with it in all but the id
and the position. An expectation of a member is out of bounds exactly if the record has no member at its
index, so once the counts are met the other expectations can only fail by what a member says.
-/

namespace Blueprint

theorem MemberList.mem_all (list : MemberList) : list ∈ all := by
  cases list with
  | properties group => cases group <;> decide
  | _ => decide

namespace Expectation

def outOfBounds (place : String) (count : Nat) : String :=
  place ++ " out of bounds (" ++ toString count ++ " entries)"

section Failures

variable {α : Type} {label place : String} {members : List α} {index : Nat}
  {fields : List (String × Bool)} {failure : String → α → Option String}

theorem firstDifference_eq_none_iff :
    firstDifference place fields = none ↔ ∀ field ∈ fields, field.2 = true := by
  simp [firstDifference]

theorem append_ne_outOfBounds {ending : String} {c : Char} (h : ending.toList.getLast? = some c)
    (hc : c ≠ ')') (front place : String) (count : Nat) :
    front ++ ending ≠ outOfBounds place count := by
  intro heq
  have hlast := congrArg (fun message => message.toList.getLast?) heq
  simp only [outOfBounds, String.toList_append, List.getLast?_append, h] at hlast
  have hletter : some c = some ')' := hlast
  exact hc (Option.some.inj hletter)

theorem mismatch_ne_outOfBounds (place other : String) (count : Nat) :
    mismatch place ≠ outOfBounds other count :=
  append_ne_outOfBounds (c := 'h') (by decide) (by decide) place other count

theorem firstDifference_ne_outOfBounds (other : String) (count : Nat) :
    firstDifference place fields ≠ some (outOfBounds other count) := by
  intro h
  obtain ⟨field, -, hfield⟩ := Option.map_eq_some_iff.mp h
  exact mismatch_ne_outOfBounds _ other count hfield

theorem failureAt_eq_none_iff {x : α} (h : ∀ place m, failure place m = none ↔ m = x) :
    failureAt label members index failure = none ↔ members[index]? = some x := by
  unfold failureAt
  cases members[index]? <;> simp [h]

theorem failureAt_outOfBounds_iff
    (h : ∀ place m other count, failure place m ≠ some (outOfBounds other count)) :
    (∃ other count, failureAt label members index failure = some (outOfBounds other count)) ↔
      members.length ≤ index := by
  unfold failureAt
  rw [← List.getElem?_eq_none_iff]
  cases members[index]? with
  | none => exact ⟨fun _ => rfl, fun _ => ⟨_, _, rfl⟩⟩
  | some m => simp [h]

end Failures

section Members

variable {r : ClassRecord} {index : Nat}

theorem countIs_met_iff {list : MemberList} {count : Nat} :
    (countIs list count).failure? r = none ↔ r.count list = count := by
  simp [failure?]

theorem signalAt_met_iff {name : String} {params : List String} :
    (signalAt index name params).failure? r = none ↔
      r.signals[index]? = some ⟨name, params⟩ := by
  rw [failure?]
  refine failureAt_eq_none_iff fun place s => ?_
  cases s
  simp [firstDifference_eq_none_iff]

theorem constantAt_met_iff {name type value : String} :
    (constantAt index name type value).failure? r = none ↔
      r.constants[index]? = some ⟨name, type, value⟩ := by
  rw [failure?]
  refine failureAt_eq_none_iff fun place c => ?_
  cases c
  simp [firstDifference_eq_none_iff]

theorem enumerationAt_met_iff {name : String} {values : List String} :
    (enumerationAt index name values).failure? r = none ↔
      r.enums[index]? = some ⟨name, values⟩ := by
  rw [failure?]
  refine failureAt_eq_none_iff fun place e => ?_
  cases e
  simp [firstDifference_eq_none_iff]

theorem propertyAt_met_iff {group : PropertyGroup} {name type : String} {default : Option String} :
    (propertyAt group index name type default).failure? r = none ↔
      (r.properties group)[index]? = some ⟨name, type, default⟩ := by
  rw [failure?]
  refine failureAt_eq_none_iff fun place p => ?_
  cases p
  simp [firstDifference_eq_none_iff]

theorem functionAt_met_iff {name returnType : String} {params : List String}
    {body : Option String} :
    (functionAt index name returnType params body).failure? r = none ↔
      r.functions[index]? = some ⟨name, params, returnType, body⟩ := by
  rw [failure?]
  refine failureAt_eq_none_iff fun place f => ?_
  cases f
  simp [firstDifference_eq_none_iff, and_left_comm]

theorem componentAt_met_iff {name type : String} :
    (componentAt index name type).failure? r = none ↔
      r.components[index]? = some ⟨name, type⟩ := by
  rw [failure?]
  refine failureAt_eq_none_iff fun place c => ?_
  cases c
  simp [firstDifference_eq_none_iff]

theorem bare_met_iff : bare.failure? r = none ↔ r.toMembers = {} := by
  obtain ⟨m, id, name, parent, interfaces, kind, position⟩ := r
  cases m
  simp [failure?, Members.isEmpty, Members.allProperties, PropertyGroup.all, Members.properties,
    and_assoc]

/-- The place of the member that an expectation is about. -/
def member? : Expectation → Option (MemberList × Nat)
  | signalAt index _ _ => some (.signals, index)
  | constantAt index _ _ _ => some (.constants, index)
  | enumerationAt index _ _ => some (.enums, index)
  | propertyAt group index _ _ _ => some (.properties group, index)
  | functionAt index _ _ _ _ => some (.functions, index)
  | placeholderAt index => some (.functions, index)
  | componentAt index _ _ => some (.components, index)
  | _ => none

/-- The expectation fails because the member that it is about is not there. -/
def Misses (r : ClassRecord) (e : Expectation) : Prop :=
  ∃ place count, e.failure? r = some (outOfBounds place count)

/-- Only an expectation of a member can be out of bounds, and it is where there is no such member. -/
theorem misses_iff {e : Expectation} :
    Misses r e ↔ ∃ place ∈ e.member?, r.count place.1 ≤ place.2 := by
  cases e with
  | nameIs | kindIs | parentIs | interfacesAre | countIs =>
    simp [Misses, failure?, failure?.ofRecord, member?, mismatch_ne_outOfBounds]
  | bare =>
    have hbare : ∀ place count, "record '" ++ r.name ++ "' is not bare" ≠ outOfBounds place count :=
      append_ne_outOfBounds (c := 'e') (by decide) (by decide) _
    simp [Misses, failure?, member?, hbare]
  | placeholderAt index =>
    have hbody : ∀ place other count,
        place ++ ".body is not the placeholder" ≠ outOfBounds other count :=
      append_ne_outOfBounds (c := 'r') (by decide) (by decide)
    rw [Misses, failure?, failureAt_outOfBounds_iff]
    · simp [member?, Members.count]
    · simp [hbody]
  | _ =>
    rw [Misses, failure?, failureAt_outOfBounds_iff fun _ _ => firstDifference_ne_outOfBounds]
    simp [member?, Members.count]

end Members

section Describing

variable {r d : ClassRecord} {α : Type}

def headerChecks (r : ClassRecord) : List Expectation :=
  [nameIs r.name, kindIs r.kind, parentIs r.parent, interfacesAre r.interfaces]

def memberChecks (m : Members) : MemberList → List Expectation
  | .signals => m.signals.mapIdx fun i s => signalAt i s.name s.params
  | .constants => m.constants.mapIdx fun i c => constantAt i c.name c.type c.value
  | .enums => m.enums.mapIdx fun i e => enumerationAt i e.name e.values
  | .properties group =>
    (m.properties group).mapIdx fun i p => propertyAt group i p.name p.type p.default
  | .functions => m.functions.mapIdx fun i f => functionAt i f.name f.returnType f.params f.body
  | .components => m.components.mapIdx fun i c => componentAt i c.name c.type

/-- A record is described by its header, the counts of its members and the members list by list. -/
theorem forall_describing_iff {p : Expectation → Prop} :
    (∀ e ∈ describing d, p e) ↔
      (∀ e ∈ headerChecks d, p e) ∧ (∀ list, p (countIs list (d.count list))) ∧
        ∀ list, ∀ e ∈ memberChecks d.toMembers list, p e := by
  have hdescribing : describing d =
      headerChecks d ++ MemberList.all.map (fun list => countIs list (d.count list)) ++
        MemberList.all.flatMap (memberChecks d.toMembers) := by
    simp [describing, headerChecks, memberChecks, MemberList.all, PropertyGroup.all]
  rw [hdescribing, List.forall_mem_append, List.forall_mem_append, List.forall_mem_map,
    List.forall_mem_flatMap, and_assoc]
  simp only [MemberList.mem_all, forall_const]

theorem headerChecks_met_iff :
    (∀ e ∈ headerChecks d, e.failure? r = none) ↔
      r.name = d.name ∧ r.kind = d.kind ∧ r.parent = d.parent ∧ r.interfaces = d.interfaces := by
  simp [headerChecks, failure?]

/-- Of two lists of one length the one has the members that are expected of the other exactly if they
are the same. -/
theorem forall_mapIdx_met_iff {found described : List α} {expect : Nat → α → Expectation}
    (h : ∀ i x, (expect i x).failure? r = none ↔ found[i]? = some x)
    (hlength : found.length = described.length) :
    (∀ e ∈ described.mapIdx expect, e.failure? r = none) ↔ found = described := by
  constructor
  · intro hmet
    refine List.ext_getElem? fun i => ?_
    cases hi : described[i]? with
    | none =>
      rw [List.getElem?_eq_none_iff] at hi ⊢
      exact hlength ▸ hi
    | some x =>
      obtain ⟨hlt, hx⟩ := List.getElem?_eq_some_iff.mp hi
      exact (h i x).mp (hmet _ (List.mem_mapIdx.mpr ⟨i, hlt, by rw [hx]⟩))
  · rintro rfl e he
    obtain ⟨i, hlt, rfl⟩ := List.mem_mapIdx.mp he
    exact (h i _).mpr (List.getElem?_eq_getElem hlt)

theorem memberChecks_met_iff {list : MemberList} (hcount : r.count list = d.count list) :
    (∀ e ∈ memberChecks d.toMembers list, e.failure? r = none) ↔ r.only list = d.only list := by
  cases list with
  | signals =>
    rw [memberChecks, forall_mapIdx_met_iff (fun _ _ => signalAt_met_iff) hcount]
    simp [Members.only]
  | constants =>
    rw [memberChecks, forall_mapIdx_met_iff (fun _ _ => constantAt_met_iff) hcount]
    simp [Members.only]
  | enums =>
    rw [memberChecks, forall_mapIdx_met_iff (fun _ _ => enumerationAt_met_iff) hcount]
    simp [Members.only]
  | properties group =>
    rw [memberChecks, forall_mapIdx_met_iff (fun _ _ => propertyAt_met_iff) hcount]
    cases group <;> simp [Members.only, Members.withProperties, Members.properties]
  | functions =>
    rw [memberChecks, forall_mapIdx_met_iff (fun _ _ => functionAt_met_iff) hcount]
    simp [Members.only]
  | components =>
    rw [memberChecks, forall_mapIdx_met_iff (fun _ _ => componentAt_met_iff) hcount]
    simp [Members.only]

/-- The members in all lists are as expected if their counts are and they are list by list. -/
theorem members_met_iff :
    ((∀ list, (countIs list (d.count list)).failure? r = none) ∧
        ∀ list, ∀ e ∈ memberChecks d.toMembers list, e.failure? r = none) ↔
      r.toMembers = d.toMembers := by
  simp only [countIs_met_iff]
  constructor
  · rintro ⟨hcounts, hmembers⟩
    exact Members.ext_only fun list => (memberChecks_met_iff (hcounts list)).mp (hmembers list)
  · intro h
    have hcounts : ∀ list, r.count list = d.count list := fun list => by rw [h]
    exact ⟨hcounts, fun list => (memberChecks_met_iff (hcounts list)).mpr (by rw [h])⟩

theorem agrees_iff :
    { r with id := d.id, position := d.position } = d ↔
      (r.name = d.name ∧ r.kind = d.kind ∧ r.parent = d.parent ∧ r.interfaces = d.interfaces) ∧
        r.toMembers = d.toMembers := by
  constructor
  · intro h
    rw [← h]
    exact ⟨⟨rfl, rfl, rfl, rfl⟩, rfl⟩
  · cases r
    cases d
    rintro ⟨⟨rfl, rfl, rfl, rfl⟩, rfl⟩
    rfl

theorem exists_member?_of_mem {m : Members} {list : MemberList} {e : Expectation}
    (h : e ∈ memberChecks m list) : ∃ index < m.count list, e.member? = some (list, index) := by
  cases list with
  | _ =>
    obtain ⟨index, hlt, rfl⟩ := List.mem_mapIdx.mp h
    exact ⟨index, hlt, rfl⟩

theorem not_misses_of_counts
    (hcounts : ∀ list, (countIs list (d.count list)).failure? r = none) :
    ∀ e ∈ describing d, ¬ Misses r e := by
  simp only [countIs_met_iff] at hcounts
  simp only [misses_iff]
  refine forall_describing_iff.mpr ⟨?_, fun list => ?_, fun list e he => ?_⟩
  · simp [headerChecks, member?]
  · simp [member?]
  · obtain ⟨index, hlt, hmember⟩ := exists_member?_of_mem he
    rw [← hcounts list] at hlt
    simpa [hmember] using hlt

/-- What describes a record is met by the records that agree with it in all fields but the id and the
position. Once its counts are met, no expectation of a member is out of bounds. Only a record without
members is bare. -/
theorem describing_pins (r d : ClassRecord) :
    ((∀ e ∈ describing d, e.failure? r = none) ↔
        { r with id := d.id, position := d.position } = d) ∧
      ((∀ list, (countIs list (d.count list)).failure? r = none) →
        ∀ e ∈ describing d, ¬ Misses r e) ∧
      (bare.failure? r = none ↔ r.toMembers = {}) := by
  refine ⟨?_, not_misses_of_counts, bare_met_iff⟩
  rw [forall_describing_iff, headerChecks_met_iff, members_met_iff, agrees_iff]

/-- A class with members in some of the lists and a property that has no default. -/
def lamp : ClassRecord where
  id := "dsl_1"
  name := "Lamp"
  parent := some "Node2D"
  interfaces := ["ISwitch"]
  signals := [⟨"lit", ["level: int", ""]⟩, ⟨"lit", []⟩]
  enums := [⟨"State", ["On", "Off"]⟩]
  interfaceProps := [⟨"on", "bool", none⟩]
  functions := [.declared "toggle" [] "void"]

/-- The same class where the property has a default. -/
def litLamp : ClassRecord :=
  { lamp with interfaceProps := [⟨"on", "bool", some "true"⟩] }

theorem describing_pins_default :
    (∀ e ∈ describing lamp,
        e.failure? { lamp with id := "dsl_2", position := ⟨0.5, -3⟩ } = none) ∧
      (∀ list, (countIs list (lamp.count list)).failure? litLamp = none) ∧
      (∀ e ∈ describing lamp, ¬ Misses litLamp e) ∧
      ¬ ∀ e ∈ describing lamp, e.failure? litLamp = none := by
  obtain ⟨hmet, hbounds, -⟩ := describing_pins litLamp lamp
  have hcounts : ∀ list, (countIs list (lamp.count list)).failure? litLamp = none := by
    intro list
    cases list with
    | properties group => cases group <;> rfl
    | _ => rfl
  refine ⟨(describing_pins _ lamp).1.mpr rfl, hcounts, hbounds hcounts, fun hall => ?_⟩
  have hprops : litLamp.interfaceProps = lamp.interfaceProps :=
    congrArg (fun r => r.interfaceProps) (hmet.mp hall)
  exact absurd hprops (by decide)

end Describing

end Expectation

end Blueprint
