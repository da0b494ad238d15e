import Blueprint.Proofs.Canonical.Image

/-!
# Normalising a description

A description is normalised by writing the record that it stands for. The canonical description can
always be parsed. It stands for the same design exactly if the columns of its tables come apart
again, and a quote at the edge of a column can keep them from it.
-/

namespace Blueprint

namespace ClassRecord

theorem beq_eq (r s : ClassRecord) : (r == s) = instBEqClassRecord.beq r s := rfl

theorem position_beq_self : (({} : Position) == {}) = true := by decide

theorem toMembers_eq_of_sameDesign {r s : ClassRecord} (h : r.sameDesign s = true) :
    r.toMembers = s.toMembers := by
  cases r
  cases s
  simp only [sameDesign, beq_eq, instBEqClassRecord.beq, Bool.and_eq_true, beq_iff_eq] at h
  exact h.1

/-- A record as it is parsed has the design of the one with its header and other members only if the
members are the same. -/
theorem sameDesign_recordWith_iff {r : ClassRecord} {id : String} {m : Members}
    (hkind : r.kind = ClassKind.infer r.name) (hposition : r.position = {}) :
    r.sameDesign (Canonical.recordWith r id m) = true ↔ r.toMembers = m := by
  obtain ⟨members, old, name, parent, interfaces, kind, position⟩ := r
  obtain rfl : kind = ClassKind.infer name := hkind
  obtain rfl : position = {} := hposition
  simp [sameDesign, beq_eq, instBEqClassRecord.beq, Canonical.recordWith, position_beq_self]

end ClassRecord

namespace Description

open Canonical (write tables)

/-- Normalising a description never fails. It keeps the design of the record exactly if, in every
table of the canonical description, the first column does not start with a quote and no column but
the last ends with one. -/
theorem sameDesign_parse_write (id id' s : String) (p : Parsed)
    (h : parse .engine id s = .ok p) :
    ∃ p', parse .engine id' (write .engine p.record) = .ok p' ∧
      (p.record.sameDesign p'.record = true ↔
        ∀ t ∈ tables .engine p.record.toMembers,
          (∀ c ∈ t.columns.head?, c.toList.head? ≠ some '\'') ∧
            ∀ c ∈ t.columns.dropLast, c.toList.getLast? ≠ some '\'') := by
  have hliteral : ∀ type, Canonical.Entry (DefaultTable.engine.literal type) :=
    fun type => (Canonical.cell_engine type).entry
  obtain ⟨hspelled, hwritten, hkind, hposition⟩ := canonical_of_parse hliteral h
  refine ⟨_, Canonical.parse_write hliteral hspelled id', ?_⟩
  have hread := Canonical.concat_read_iff hliteral hspelled.members
  rw [hwritten] at hread
  rw [ClassRecord.sameDesign_recordWith_iff hkind hposition, eq_comm, hread]
  refine forall₂_congr fun t _ => ?_
  constructor
  · rintro ⟨hhead, hlast⟩
    exact ⟨by simpa using hhead, by simpa [← List.map_dropLast] using hlast⟩
  · rintro ⟨hhead, hlast⟩
    exact ⟨by simpa using hhead, by simpa [← List.map_dropLast] using hlast⟩

theorem sameDesign_parse_write_legacy :
    ∃ p, parse .engine "dsl_1" "Cl'A;cv'a''i'nt" = .ok p ∧
      ∃ p', parse .engine "dsl_2" (write .engine p.record) = .ok p' ∧
        p.record.sameDesign p'.record = true := by
  have hread : (parse .engine "dsl_1" "Cl'A;cv'a''i'nt").toOption.map (·.record.toMembers) =
      some { uniqueProps := [⟨"a", "i'nt", some "null"⟩] } := by
    decide +kernel
  cases hp : parse .engine "dsl_1" "Cl'A;cv'a''i'nt" with
  | error fault => simp [hp, Except.toOption] at hread
  | ok p =>
    have hmembers : p.record.toMembers = { uniqueProps := [⟨"a", "i'nt", some "null"⟩] } := by
      simpa [hp, Except.toOption] using hread
    obtain ⟨p', hp', hsame⟩ := sameDesign_parse_write "dsl_1" "dsl_2" "Cl'A;cv'a''i'nt" p hp
    refine ⟨p, rfl, p', hp', hsame.mpr ?_⟩
    have hcolumns : ∀ t ∈ tables .engine { uniqueProps := [⟨"a", "i'nt", some "null"⟩] },
        (∀ c ∈ t.columns.head?, c.toList.head? ≠ some '\'') ∧
          ∀ c ∈ t.columns.dropLast, c.toList.getLast? ≠ some '\'' := by
      decide +kernel
    rwa [hmembers]

/-- The quote at the end of a constant's name is taken for the first of the pair behind it. -/
theorem not_sameDesign_parse_write :
    ¬∀ (id id' s : String) (p : Parsed), parse .engine id s = .ok p →
      ∃ p', parse .engine id' (write .engine p.record) = .ok p' ∧
        p.record.sameDesign p'.record = true := by
  intro hall
  have hfirst : (parse .engine "dsl_1" "Cl'A;cn'a',''int,int''0,0").toOption.map
      (fun p => (p.record.constants, write .engine p.record)) =
        some ([⟨"a'", "int", "0"⟩], "Cl'A'';cn'a'''int''0") := by
    decide +kernel
  have hsecond : (parse .engine "dsl_2" "Cl'A'';cn'a'''int''0").toOption.map
      (fun p => p.record.constants) = some [⟨"a", "'int", "0"⟩] := by
    decide +kernel
  cases hp : parse .engine "dsl_1" "Cl'A;cn'a',''int,int''0,0" with
  | error fault => simp [hp, Except.toOption] at hfirst
  | ok p =>
    obtain ⟨hconstants, hwrite⟩ : p.record.constants = [⟨"a'", "int", "0"⟩] ∧
        write .engine p.record = "Cl'A'';cn'a'''int''0" := by
      simpa [hp, Except.toOption] using hfirst
    obtain ⟨p', hp', hsame⟩ := hall "dsl_1" "dsl_2" _ p hp
    rw [hwrite] at hp'
    have hconstants' : p'.record.constants = [⟨"a", "'int", "0"⟩] := by
      simpa [hp', Except.toOption] using hsecond
    have hmembers := congrArg Members.constants (ClassRecord.toMembers_eq_of_sameDesign hsame)
    rw [hconstants, hconstants'] at hmembers
    exact absurd hmembers (by decide)

end Description

end Blueprint
