import Blueprint.Proofs.Exchange.RoundTrip
import Blueprint.Proofs.Project.Insertion
import Mathlib.Data.List.Forall2

/-!
# What a manifest says

The manifest of a project is JSON. It names the project and has one entry for each record, in their
order. An entry holds the fields of its record and one more key that the reader of records does not
know, so it is read as the record itself is.
-/

namespace Blueprint

open Json (Outline)

namespace Exchange

/-- A key that the shape does not know makes no difference to what an object is read as. -/
theorem Shape.read_object_append_unknown {σ : Type} {shape : Shape σ} {key : String} {v : Outline}
    (hkey : shape.fields.find? (·.name == key) = none) (hwhole : v.isWhole = true)
    (entries : List (Outline × Outline)) :
    shape.read (.object (entries ++ [(.text (some key), v)]) true) =
      shape.read (.object entries true) := by
  rw [read, read, readEntries_append]
  cases shape.readEntries entries [] shape.blank with
  | error fault => rfl
  | ok found => rw [ok_bind, readEntries_unknown hkey hwhole, readEntries]

theorem entryOutlines_append (front back : List (String × Json)) :
    Json.entryOutlines (front ++ back) = Json.entryOutlines front ++ Json.entryOutlines back := by
  simp [entryOutlines_eq_keyed, Shape.keyed]

/-- A record is read back from the value it is written as exactly if the coordinates are. -/
theorem read_ofRecord_iff (r : ClassRecord) :
    record.read (ofRecord r).outline = .ok r ↔ ReadsBack r.position.x ∧ ReadsBack r.position.y := by
  rw [read_ofRecord, ← read_ofPosition_iff]
  obtain ⟨members, id, name, parent, interfaces, kind, p⟩ := r
  cases position.read (ofPosition p).outline <;> simp

end Exchange

namespace ExportPlan

open Exchange (ReadsBack)

/-- The entry stands for the record: it is read as the record exactly if the coordinates of the
position are read as they were written, and it has the record's canonical description. -/
structure Describes (r : ClassRecord) (entry : Json) : Prop where
  record_iff : Exchange.record.read entry.outline = .ok r ↔
    ReadsBack r.position.x ∧ ReadsBack r.position.y
  dsl : entry.get? "dsl" = some (.text (Canonical.write .engine r))

theorem read_manifestEntry (r : ClassRecord) :
    Exchange.record.read (manifestEntry r).outline =
      Exchange.record.read (Exchange.ofRecord r).outline := by
  rw [manifestEntry, Exchange.ofRecord, Json.outline, Json.outline, Exchange.entryOutlines_append]
  exact Exchange.Shape.read_object_append_unknown (by simp [Exchange.record]) rfl _

theorem describes_manifestEntry (r : ClassRecord) : Describes r (manifestEntry r) where
  record_iff := by rw [read_manifestEntry, Exchange.read_ofRecord_iff]
  dsl := by
    cases hparent : r.parent <;>
      simp [manifestEntry, Json.get?, Exchange.entries, Exchange.optional, hparent, List.lookup_cons]

theorem standard_manifestEntry (r : ClassRecord) : (manifestEntry r).Standard := by
  cases Exchange.standard_ofRecord r with
  | object hentries =>
    refine .object fun entry hentry => ?_
    rcases List.mem_append.mp hentry with hentry | hentry
    · exact hentries entry hentry
    · rw [List.mem_singleton.mp hentry]
      exact .text _

theorem standard_manifest (project : String) (records : List ClassRecord) :
    (manifest project records).Standard :=
  .object (by
    simpa [Json.Standard.text] using Exchange.standard_list standard_manifestEntry records)

section Built

variable {layout : ProjectLayout} {indent project : String} {records : List ClassRecord}
  {plan : ExportPlan}

/-- Only the fragment that registers global classes is put into the plan after the manifest. -/
theorem get?_manifest (h : build layout indent project records = .ok plan)
    (hregistry : globals records ≠ [] →
      Path.ofText layout.manifest ≠ Path.ofText layout.autoloadRegistry) :
    plan.get? layout.manifest = some (manifest project records).render := by
  obtain ⟨-, rfl⟩ := build_eq_ok_iff.mp h
  rw [get?_eq_content?, contributions]
  by_cases hglobals : globals records = []
  · rw [hglobals, List.isEmpty_nil, if_pos rfl, List.append_nil, content?_ofFiles_concat]
    exact if_pos rfl
  · rw [if_neg (by simpa using hglobals), content?_ofFiles_concat,
      if_neg (by exact hregistry hglobals), content?_ofFiles_concat]
    exact if_pos rfl

/-- The manifest of a project is JSON that names the project and has one entry for each record, in
their order. The entry is read as the record and has its canonical description. The plan has the
manifest in its place, unless the fragment for the global classes takes that place. -/
theorem manifest_of_build (h : build layout indent project records = .ok plan) :
    (∃ v entries, Outline.ofText (manifest project records).render.toList = (v.outline, true) ∧
        Json.parse? (manifest project records).render = some v ∧
        v.get? "projectName" = some (.text project) ∧
        v.get? "classes" = some (.list entries) ∧
        List.Forall₂ Describes records entries) ∧
      ⟨layout.manifest, (manifest project records).render⟩ ∈
        contributions layout indent project records ∧
      ((globals records ≠ [] →
          Path.ofText layout.manifest ≠ Path.ofText layout.autoloadRegistry) →
        plan.get? layout.manifest = some (manifest project records).render) := by
  have hstandard := standard_manifest project records
  refine ⟨⟨manifest project records, records.map manifestEntry, Json.ofText_render hstandard,
    Json.parse?_render hstandard, ?_, ?_, ?_⟩, ?_, get?_manifest h⟩
  · simp [manifest, Json.get?]
  · simp [manifest, Json.get?, List.lookup_cons]
  · rw [List.forall₂_map_right_iff, List.forall₂_same]
    exact fun r _ => describes_manifestEntry r
  · simp [contributions]

end Built

/-- A global class whose texts need escapes, at coordinates that are no whole numbers. -/
def quotedGlobal : ClassRecord where
  id := "\\"
  name := "Global\"A"
  kind := .global
  uniqueProps := [⟨"x", "\t", none⟩]
  position := ⟨0.1, -2.5e-7⟩

theorem manifest_of_build_quotedGlobal :
    ∃ plan text v entry, build {} "\t" "a\"b" [quotedGlobal] = .ok plan ∧
      plan.get? "weave_setup.json" = some text ∧ Json.parse? text = some v ∧
      v.get? "projectName" = some (.text "a\"b") ∧ v.get? "classes" = some (.list [entry]) ∧
      Exchange.record.read entry.outline = .ok quotedGlobal := by
  have hvalid : firstNameFault? [] ([quotedGlobal].map (·.name)) = none := by decide
  obtain ⟨plan, h⟩ : ∃ plan, build {} "\t" "a\"b" _ = .ok plan := exists_build_iff.mpr hvalid
  obtain ⟨⟨v, entries, -, hparse, hproject, hclasses, hentries⟩, -, hget⟩ := manifest_of_build h
  obtain ⟨entry, _, hentry, hnil, rfl⟩ := List.forall₂_cons_left_iff.mp hentries
  obtain rfl := List.forall₂_nil_left_iff.mp hnil
  exact ⟨plan, _, v, entry, h, hget fun _ => by decide, hparse, hproject, hclasses,
    hentry.record_iff.mpr ⟨by decide +kernel, by decide +kernel⟩⟩

end ExportPlan

end Blueprint
