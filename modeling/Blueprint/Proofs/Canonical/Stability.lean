import Blueprint.Proofs.Canonical.Writing
import Blueprint.Proofs.Layout.Edits

/-!
# Stability of canonical descriptions

A canonical description is its own compact form, also after it has been spread out. Written anew for
the record that it is parsed to, it stays as it is: the defaults that parsing fills in are those that
writing fills in, an optional column is written again exactly if it was written before, and what
parsing makes up otherwise is never written.
-/

namespace Blueprint

namespace Canonical

open Layout (Tight)

variable {literals : DefaultTable}

section Tables

theorem tableFor_map {α β : Type} (f : α → β) (tag : Tag) (members : List α)
    (columns : List String) :
    tableFor tag (members.map f) columns = tableFor tag members columns := by
  simp [tableFor]

theorem propertyColumns_filled (props : List Property) :
    propertyColumns literals (props.map (·.filled literals)) = propertyColumns literals props := by
  simp [propertyColumns, Property.filled, Function.comp_def]

theorem functionColumns_bodiless (fs : List Function) :
    functionColumns (fs.map Function.bodiless) = functionColumns fs := by
  simp [functionColumns, Function.bodiless, Function.declared, Function.comp_def]

theorem tablesOf_written (m : Members) (list : MemberList) :
    tablesOf literals (m.written literals) list = tablesOf literals m list := by
  have hprops : ∀ (tag : Tag) (props : List Property),
      tableFor tag (props.map (·.filled literals))
          (propertyColumns literals (props.map (·.filled literals))) =
        tableFor tag props (propertyColumns literals props) := fun tag props => by
    rw [tableFor_map, propertyColumns_filled]
  cases list with
  | constants | enums | signals | components => rfl
  | functions =>
    have hfunctions : (m.written literals).functions = m.functions.map Function.bodiless := rfl
    rw [tablesOf, tablesOf, hfunctions, tableFor_map, functionColumns_bodiless]
  | properties group =>
    cases group with
    | interface => rfl
    | flags => exact hprops .flags m.flags
    | current => exact hprops .currentProps m.currentProps
    | unique => exact hprops .uniqueProps m.uniqueProps

theorem tables_written (m : Members) :
    tables literals (m.written literals) = tables literals m := by
  exact congrArg writtenOrder.flatMap (funext (tablesOf_written m))

theorem write_recordWith_written (r : ClassRecord) (id : String) :
    write literals (recordWith r id (r.toMembers.written literals)) = write literals r := by
  have hheader : header (recordWith r id (r.toMembers.written literals)) = header r := rfl
  have hmembers : (recordWith r id (r.toMembers.written literals)).toMembers =
      r.toMembers.written literals := rfl
  rw [write, write, sections_eq, sections_eq, hheader, hmembers, tables_written]

end Tables

theorem tight_write (hliteral : ∀ type, Entry (literals.literal type)) {r : ClassRecord}
    (hr : r.Spelled) : Tight (write literals r).toList := by
  have hmark : Text.isBlank ';' = false := by decide
  have htext : (write literals r).toList = [';'].intercalate (sectionTexts literals r) := by
    rw [write, String.toList_intercalate]
    rfl
  rw [htext]
  apply intercalate_induction Layout.tight_nil
  · intro before after hbefore hafter
    exact hbefore.join hmark hafter
  · intro text ht
    rw [sectionTexts_eq] at ht
    rcases List.mem_cons.mp ht with rfl | ht
    · exact tight_header hr
    · obtain ⟨t, htable, rfl⟩ := List.mem_map.mp ht
      exact tight_text (column_of_mem_tables hliteral hr htable)

/-- Canonical text is a fixed point. What is written for a record of cells, with literals that are
cells, is its own compact form and that of its spread form, and writing the record that it is parsed
to gives the same text. Nothing is asked of the id, the kind, the position and the bodies, and
defaults may be absent. -/
theorem write_stable (literals : DefaultTable) (hliteral : ∀ type, Cell (literals.literal type))
    (r : ClassRecord) (hr : r.OfCells) :
    Layout.compact (write literals r).toList = (write literals r).toList ∧
      Layout.compact (Layout.spread (write literals r).toList) = (write literals r).toList ∧
      ∀ id : String, ∃ p, Description.parse literals id (write literals r) = .ok p ∧
        write literals p.record = write literals r := by
  have hentry : ∀ type, Entry (literals.literal type) := fun type => (hliteral type).entry
  have hspelled : r.Spelled := spelled_of_cells hr
  have hcompact := (tight_write hentry hspelled).compact_eq
  refine ⟨hcompact, ?_, fun id => ?_⟩
  · rw [Layout.compact_spread, hcompact]
  · have hparse := parse_write_of_separable hentry hspelled id (separable_of_cells hliteral hr)
    exact ⟨_, hparse, write_recordWith_written r id⟩

theorem write_stable_lamp :
    let text := "Cl'Lamp, Old'Node'ILit,IHot;fl'on''bool''false;fn'dim''void''by: int,slow"
    write .engine
        { id := "draft", name := "Lamp, Old", parent := some "Node", interfaces := ["ILit", "IHot"]
          kind := .component
          position := { x := 4, y := 2 }
          flags := [⟨"on", "bool", none⟩]
          functions := [⟨"dim", ["by: int", "slow"], "void", some "pass"⟩] } = text ∧
      Layout.compact text.toList = text.toList ∧
      Layout.compact (Layout.spread text.toList) = text.toList ∧
      ∃ p, Description.parse .engine "dsl_7" text = .ok p ∧ write .engine p.record = text := by
  intro text
  have hwrite : write .engine
      { id := "draft", name := "Lamp, Old", parent := some "Node", interfaces := ["ILit", "IHot"]
        kind := .component
        position := { x := 4, y := 2 }
        flags := [⟨"on", "bool", none⟩]
        functions := [⟨"dim", ["by: int", "slow"], "void", some "pass"⟩] } = text := by
    decide +kernel
  have hstable := write_stable .engine cell_engine
    { id := "draft", name := "Lamp, Old", parent := some "Node", interfaces := ["ILit", "IHot"]
      kind := .component
      position := { x := 4, y := 2 }
      flags := [⟨"on", "bool", none⟩]
      functions := [⟨"dim", ["by: int", "slow"], "void", some "pass"⟩] } (by
        constructor
        case members =>
          constructor
          case properties =>
            intro group
            cases group <;> decide +kernel
          all_goals decide +kernel
        all_goals decide +kernel)
  rw [hwrite] at hstable
  exact ⟨hwrite, hstable.1, hstable.2.1, hstable.2.2 "dsl_7"⟩

end Canonical

end Blueprint
