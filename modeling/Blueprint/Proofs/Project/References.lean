import Blueprint.Proofs.Project.NameFaults

/-!
# Warnings about references

A record refers to its parent, its interfaces and the types of its properties. The check of a project
warns of each reference that neither the engine nor the project resolves, class by class. Whether a
reference is resolved depends on which records there are and not on their order, and a further record
resolves the references to it and no others.
-/

namespace Blueprint

namespace Project

variable {records records' : List ClassRecord}

/-- All that a record refers to, resolved or not. -/
def references (r : ClassRecord) : List Unresolved :=
  r.parent.toList.map .parent ++ r.interfaces.map .interface ++
    (r.uniqueProps ++ r.currentProps ++ r.interfaceProps).map fun p => .propertyType p.type p.name

/-- The engine or a record has the name that is referred to; for an interface a record of this kind. -/
def Resolved (records : List ClassRecord) : Unresolved → Prop
  | .parent name => name ∈ Engine.classes ∨ ∃ r ∈ records, r.name = name
  | .interface name => ∃ r ∈ records, r.kind = .interface ∧ r.name = name
  | .propertyType type _ => type ∈ Engine.types ∨ ∃ r ∈ records, r.name = type

instance (records : List ClassRecord) : DecidablePred (Resolved records)
  | .parent name =>
    inferInstanceAs (Decidable (name ∈ Engine.classes ∨ ∃ r ∈ records, r.name = name))
  | .interface name =>
    inferInstanceAs (Decidable (∃ r ∈ records, r.kind = .interface ∧ r.name = name))
  | .propertyType type _ =>
    inferInstanceAs (Decidable (type ∈ Engine.types ∨ ∃ r ∈ records, r.name = type))

/-- The reference is to this record: it has the name that is referred to, and for a reference to an
interface it is one. -/
def Unresolved.RefersTo (r : ClassRecord) : Unresolved → Prop
  | parent name => r.name = name
  | interface name => r.kind = .interface ∧ r.name = name
  | propertyType type _ => r.name = type

instance (r : ClassRecord) : DecidablePred (Unresolved.RefersTo r)
  | .parent name => inferInstanceAs (Decidable (r.name = name))
  | .interface name => inferInstanceAs (Decidable (r.kind = .interface ∧ r.name = name))
  | .propertyType type _ => inferInstanceAs (Decidable (r.name = type))

/-- The warnings about one class: one for each of its references that is not resolved, in order. -/
def warningsOf (records : List ClassRecord) (r : ClassRecord) : List Warning :=
  ((references r).filter fun u => ¬Resolved records u).map (⟨r.name, ·⟩)

section Tests

variable {name property : String}

theorem resolved_parent_iff :
    Resolved records (.parent name) ↔ (Engine.isClass name || declares records name) = true := by
  simp [Resolved, Engine.isClass, declares]

theorem resolved_interface_iff :
    Resolved records (.interface name) ↔ declaresInterface records name = true := by
  simp [Resolved, declaresInterface]

theorem resolved_propertyType_iff :
    Resolved records (.propertyType name property) ↔
      (Engine.isType name || declares records name) = true := by
  simp [Resolved, Engine.isType, declares]

end Tests

theorem unresolved_eq_filter (records : List ClassRecord) (r : ClassRecord) :
    unresolved records r = (references r).filter fun u => ¬Resolved records u := by
  simp only [unresolved, references, List.filter_append, List.filter_map, Function.comp_def,
    resolved_parent_iff, resolved_interface_iff, resolved_propertyType_iff, decide_not,
    Bool.decide_eq_true, Bool.not_or]

/-- Each reference is looked up in the whole project, whatever the order of its records. -/
theorem resolved_perm (h : records'.Perm records) (u : Unresolved) :
    Resolved records' u ↔ Resolved records u := by
  cases u <;> simp only [Resolved, h.mem_iff]

theorem resolved_concat (records : List ClassRecord) (r : ClassRecord) (u : Unresolved) :
    Resolved (records ++ [r]) u ↔ Resolved records u ∨ u.RefersTo r := by
  cases u <;>
    simp [Resolved, Unresolved.RefersTo, or_and_right, exists_or, or_assoc]

theorem warningsOf_perm (h : records'.Perm records) (r : ClassRecord) :
    warningsOf records' r = warningsOf records r := by
  simp only [warningsOf, resolved_perm h]

theorem warningsOf_concat (records : List ClassRecord) (r s : ClassRecord) :
    warningsOf (records ++ [r]) s =
      (warningsOf records s).filter fun w => ¬w.reference.RefersTo r := by
  rw [warningsOf, warningsOf, List.filter_map, List.filter_filter]
  congr 1
  refine List.filter_congr fun u _ => ?_
  simp [resolved_concat, Bool.and_comm]

theorem warnings_eq_flatMap (hne : records ≠ []) :
    (check records).warnings = records.flatMap (warningsOf records) := by
  simp only [check, List.isEmpty_iff, hne, if_false, unresolved_eq_filter]
  rfl

/-- The warnings of a project are those about its classes, in order: about each class one for each
reference that is not resolved. In another order of the records the same warnings stand with the same
classes. A further record adds warnings about itself at the end, and of the others it removes just
those of references to it; the errors so far stay in front. -/
theorem warnings_check (hne : records ≠ []) :
    (check records).warnings = records.flatMap (warningsOf records) ∧
      (∀ records' : List ClassRecord, records'.Perm records →
        (check records').warnings = records'.flatMap (warningsOf records)) ∧
      ∀ r, (check (records ++ [r])).warnings =
          ((check records).warnings.filter fun w => ¬w.reference.RefersTo r) ++
            warningsOf (records ++ [r]) r ∧
        (check records).errors <+: (check (records ++ [r])).errors := by
  refine ⟨warnings_eq_flatMap hne, ?_, ?_⟩
  · intro records' h
    have hne' : records' ≠ [] := by
      intro hnil
      subst hnil
      exact hne h.symm.eq_nil
    have hblocks : warningsOf records' = warningsOf records := funext (warningsOf_perm h)
    rw [warnings_eq_flatMap hne', hblocks]
  · intro r
    have hlonger : records ++ [r] ≠ [] := by simp
    constructor
    · have hblocks : ∀ s ∈ records, warningsOf (records ++ [r]) s =
          (warningsOf records s).filter fun w => ¬w.reference.RefersTo r :=
        fun s _ => warningsOf_concat records r s
      rw [warnings_eq_flatMap hlonger, warnings_eq_flatMap hne, List.flatMap_append,
        List.flatMap_singleton, List.flatMap_congr hblocks, List.filter_flatMap]
    · rw [errors_check hlonger, errors_check hne, List.map_append, nameFaults_append,
        List.map_append]
      exact List.prefix_append ..

theorem warnings_check_repeated_name :
    let sword : ClassRecord :=
      { id := "k", name := "Sword", parent := some "Weapon", interfaces := ["Sharp", "Holder"]
        uniqueProps := [⟨"owner", "Holder", none⟩, ⟨"next", "Sword", none⟩] }
    let holder : ClassRecord :=
      { id := "l", name := "Holder", parent := some "Node", currentProps := [⟨"bag", "Bag", none⟩] }
    let again : ClassRecord :=
      { id := "m", name := "Holder", parent := some "Bag", kind := .interface }
    [sword, holder] ≠ [] ∧
      (check [sword, holder]).warnings =
        [⟨"Sword", .parent "Weapon"⟩, ⟨"Sword", .interface "Sharp"⟩, ⟨"Sword", .interface "Holder"⟩,
          ⟨"Holder", .propertyType "Bag" "bag"⟩] ∧
      (check [holder, sword]).warnings =
        [⟨"Holder", .propertyType "Bag" "bag"⟩, ⟨"Sword", .parent "Weapon"⟩,
          ⟨"Sword", .interface "Sharp"⟩, ⟨"Sword", .interface "Holder"⟩] ∧
      (check [sword, holder, again]).warnings =
        [⟨"Sword", .parent "Weapon"⟩, ⟨"Sword", .interface "Sharp"⟩,
          ⟨"Holder", .propertyType "Bag" "bag"⟩, ⟨"Holder", .parent "Bag"⟩] := by
  intro sword holder again
  have hne : [sword, holder] ≠ [] := by simp
  obtain ⟨hwarnings, hperm, hconcat⟩ := warnings_check hne
  refine ⟨hne, hwarnings.trans ?_, (hperm _ (.swap sword holder [])).trans ?_,
    (hconcat again).1.trans ?_⟩
  · decide +kernel
  · decide +kernel
  · rw [hwarnings]
    decide +kernel

end Project

end Blueprint
