import Blueprint.Proofs.Exchange.Members
import Blueprint.Proofs.Json.Outline

/-!
# Reading records back

A record that is written and read is the same record, whatever characters its texts have, whatever its
lists hold and whether or not it has a parent, defaults and bodies. The only part that can be lost is
the position, whose coordinates are read in floating-point arithmetic: reading succeeds with the same
record exactly if both coordinates are read as the numbers they were written for.
-/

namespace Blueprint.Exchange

open Json (Outline)
open Shape (knows)
open Shape.Assembly (Writes)

def recordAssembly (r : ClassRecord) : record.Assembly where
  known seen :=
    { id := pick seen "id" r.id ""
      name := pick seen "name" r.name ""
      parent := pick seen "parent" r.parent none
      interfaces := pick seen "interfaces" r.interfaces []
      kind := pick seen "kind" r.kind .normal
      signals := pick seen "signals" r.signals []
      constants := pick seen "constants" r.constants []
      enums := pick seen "enums" r.enums []
      flags := pick seen "flags" r.flags []
      currentProps := pick seen "currentProps" r.currentProps []
      interfaceProps := pick seen "interfaceProps" r.interfaceProps []
      uniqueProps := pick seen "uniqueProps" r.uniqueProps []
      functions := pick seen "functions" r.functions []
      components := pick seen "components" r.components []
      position := pick seen "position" r.position {} }
  Spells
    | "id", v => text v = .ok r.id
    | "name", v => text v = .ok r.name
    | "parent", v => text? v = .ok r.parent
    | "interfaces", v => listOf text v = .ok r.interfaces
    | "kind", v => kind v = .ok r.kind
    | "signals", v => listOf signal.read v = .ok r.signals
    | "constants", v => listOf constant.read v = .ok r.constants
    | "enums", v => listOf enumeration.read v = .ok r.enums
    | "flags", v => listOf property.read v = .ok r.flags
    | "currentProps", v => listOf property.read v = .ok r.currentProps
    | "interfaceProps", v => listOf property.read v = .ok r.interfaceProps
    | "uniqueProps", v => listOf property.read v = .ok r.uniqueProps
    | "functions", v => listOf function.read v = .ok r.functions
    | "components", v => listOf component.read v = .ok r.components
    | "position", v => position.read v = .ok r.position
    | _, _ => False
  known_nil := by simp [record]
  read_known := by
    simp only [record, List.forall_mem_cons]
    refine ⟨?_, ?_, ?_, ?_, ?_, ?_, ?_, ?_, ?_, ?_, ?_, ?_, ?_, ?_, ?_, by simp⟩ <;>
      intro seen v h <;> simp [h]

theorem kind_outline (k : ClassKind) : kind (Json.text k.name).outline = .ok k := by
  simp [Json.outline, kind, kindNamed, ClassKind.ofName?_name]

section Positions

/-- The number has a decimal text that is read as the number. -/
def ReadsBack (f : Float) : Prop :=
  (Numeral.ofFloat? f).bind Numeral.toFloat? = some f

instance : DecidablePred ReadsBack := fun _ => inferInstanceAs (Decidable (_ = _))

theorem float_ofFloat_iff {f : Float} : float (Json.ofFloat f).outline = .ok f ↔ ReadsBack f := by
  rw [Json.ofFloat, ReadsBack]
  cases Numeral.ofFloat? f with
  | none => simp [Json.outline, float, mismatch, found]
  | some n => cases h : n.toFloat? <;> simp [Json.outline, float, h]

theorem read_ofPosition (p : Position) :
    position.read (ofPosition p).outline =
      (do return ⟨← float (Json.ofFloat p.x).outline, ← float (Json.ofFloat p.y).outline⟩) := by
  simp only [ofPosition, Json.outline, Json.entryOutlines, Shape.read, Shape.readEntries, position,
    List.find?_cons]
  cases hx : float (Json.ofFloat p.x).outline with
  | error fault => simp [hx]
  | ok x =>
    cases hy : float (Json.ofFloat p.y).outline with
    | error fault => simp [hx, hy]
    | ok y => simp [hx, hy, Shape.firstMissing?]

end Positions

/-- The entries of a record that stand before its position. -/
def entriesBeforePosition (r : ClassRecord) : List (String × Json) :=
  (entries r).dropLast

theorem read_ofRecord (r : ClassRecord) :
    record.read (ofRecord r).outline =
      (do return { r with position := ← position.read (ofPosition r.position).outline }) := by
  have hentries : entries r = entriesBeforePosition r ++ [("position", ofPosition r.position)] := by
    cases hparent : r.parent <;> simp [entriesBeforePosition, entries, optional, hparent]
  have hfield : record.fields.find? (·.name == "position") = some ⟨"position", false, fun v r =>
      return { r with position := ← position.read v }⟩ := by
    simp [record]
  have hwrites : (recordAssembly r).Writes (entriesBeforePosition r) := by
    cases hparent : r.parent <;>
      simp [Writes, knows, entriesBeforePosition, entries, optional, hparent, recordAssembly,
        record, text_outline, text?_outline, kind_outline, listOf_ofTexts, listOf_outline, read_ofSignal,
        read_ofConstant, read_ofEnumeration, read_ofProperty, read_ofFunction, read_ofComponent]
  have hknown : (recordAssembly r).known ((entriesBeforePosition r).map Prod.fst).reverse =
      { r with position := {} } := by
    cases hparent : r.parent <;>
      simp [entriesBeforePosition, entries, optional, hparent, recordAssembly]
  have hread := (recordAssembly r).read_outline_concat hwrites (ofPosition r.position) hfield
  rw [ofRecord, hentries, hread, hknown]
  -- What is left are facts about the keys, which depend only on whether there is a parent.
  all_goals
    cases hparent : r.parent <;>
      simp [entriesBeforePosition, entries, optional, hparent, record]

section Standard

theorem standard_list {α : Type} {write : α → Json} (h : ∀ a, (write a).Standard) (as : List α) :
    (Json.list (as.map write)).Standard :=
  .list fun v hv => by
    obtain ⟨a, -, rfl⟩ := List.mem_map.mp hv
    exact h a

theorem standard_optional (key : String) (value : Option String) :
    ∀ entry ∈ optional key value, entry.2.Standard := by
  cases value with
  | none => simp [optional]
  | some s => simp [optional, Json.Standard.text]

theorem standard_ofSignal (s : Signal) : (ofSignal s).Standard :=
  .object (by simp [Json.Standard.text, Json.standard_ofTexts])

theorem standard_ofConstant (c : Constant) : (ofConstant c).Standard :=
  .object (by simp [Json.Standard.text])

theorem standard_ofEnumeration (e : Enumeration) : (ofEnumeration e).Standard :=
  .object (by simp [Json.Standard.text, Json.standard_ofTexts])

theorem standard_ofProperty (p : Property) : (ofProperty p).Standard :=
  .object (by simpa [Json.Standard.text] using standard_optional "default" p.default)

theorem standard_ofFunction (f : Function) : (ofFunction f).Standard :=
  .object (by
    simpa [Json.Standard.text, Json.standard_ofTexts] using standard_optional "code" f.body)

theorem standard_ofComponent (c : Component) : (ofComponent c).Standard :=
  .object (by simp [Json.Standard.text])

theorem standard_ofPosition (p : Position) : (ofPosition p).Standard :=
  .object (by simp [Json.standard_ofFloat])

theorem standard_ofRecord (r : ClassRecord) : (ofRecord r).Standard := by
  refine .object ?_
  simp only [entries, List.forall_mem_append, List.forall_mem_cons]
  exact ⟨⟨⟨.text _, .text _, by simp⟩, standard_optional "parent" r.parent⟩,
    Json.standard_ofTexts _, .text _, standard_list standard_ofSignal _,
    standard_list standard_ofConstant _, standard_list standard_ofEnumeration _,
    standard_list standard_ofProperty _, standard_list standard_ofProperty _,
    standard_list standard_ofProperty _, standard_list standard_ofProperty _,
    standard_list standard_ofFunction _, standard_list standard_ofComponent _,
    standard_ofPosition _, by simp⟩

end Standard

/-- Reading what is written for a record gives the record with its position as that is read. -/
theorem readRecord_write (r : ClassRecord) :
    readRecord (write r) =
      (do return { r with position := ← position.read (ofPosition r.position).outline }) := by
  rw [readRecord, write, Json.ofText_render (standard_ofRecord r)]
  change (record.read (ofRecord r).outline >>= fun r =>
    if true then .ok r else .error .malformed) = _
  rw [read_ofRecord]
  simp

theorem read_ofPosition_iff (p : Position) :
    position.read (ofPosition p).outline = .ok p ↔ ReadsBack p.x ∧ ReadsBack p.y := by
  obtain ⟨x, y⟩ := p
  rw [read_ofPosition, ← float_ofFloat_iff, ← float_ofFloat_iff]
  cases float (Json.ofFloat x).outline with
  | error fault => simp
  | ok u => cases float (Json.ofFloat y).outline <;> simp

/-- A record is read back from its text exactly if the coordinates of its position are. -/
theorem readRecord_write_iff (r : ClassRecord) :
    readRecord (write r) = .ok r ↔ ReadsBack r.position.x ∧ ReadsBack r.position.y := by
  rw [readRecord_write, ← read_ofPosition_iff]
  obtain ⟨members, id, name, parent, interfaces, kind, p⟩ := r
  cases position.read (ofPosition p).outline <;> simp

/-- A finite coordinate can be lost, since its digits are scaled in floating-point arithmetic. -/
example : ¬ReadsBack 0.09090909090909091 := by decide +kernel

/-- A record with quotes, backslashes, control characters and characters beyond the basic plane in
its texts, empty texts next to absent ones, and coordinates that are no whole numbers. -/
def oddRecord : ClassRecord where
  id := ""
  name := "\"\\\n\x01\x7f😀"
  parent := some ""
  interfaces := ["", "\t"]
  kind := .component
  signals := [⟨"", []⟩, ⟨"é", ["\x00", "/"]⟩]
  flags := [⟨"a", "", none⟩, ⟨"a", "", some ""⟩]
  functions := [⟨"f", [], "", none⟩, ⟨"f", [""], "", some "x\r\n"⟩]
  position := ⟨0.1, -2.5e-7⟩

theorem readRecord_write_oddRecord : readRecord (write oddRecord) = .ok oddRecord :=
  (readRecord_write_iff oddRecord).mpr ⟨by decide +kernel, by decide +kernel⟩

end Blueprint.Exchange
