import Blueprint.Proofs.Description.Parts

/-!
# Faults of a description

Whether a description gives a record is decided by its header sections alone. They can be found in
the text as it is written: a section is a header if its first characters but blanks are the letters
of the tag and then a quote, and its name is what stands between that quote and the next.
-/

namespace Blueprint.Description

open Text (isBlank)

variable {table : DefaultTable}

def headerSections (s : List Char) : List (List Char × Nat) :=
  (Text.pieces (· == ';') s).zipIdx.filter fun ti => Writes .header ti.1

def headerPositions (s : List Char) : List Nat :=
  (headerSections s).map Prod.snd

theorem getElem?_of_mem_headerSections {s t : List Char} {index : Nat}
    (h : (t, index) ∈ headerSections s) : (Text.pieces (· == ';') s)[index]? = some t :=
  List.mem_zipIdx_iff_getElem?.mp (List.mem_filter.mp h).1

theorem headerSections_eq_singleton_iff {s t : List Char} {index : Nat} :
    headerSections s = [(t, index)] ↔
      headerPositions s = [index] ∧ (Text.pieces (· == ';') s)[index]? = some t := by
  constructor
  · intro h
    exact ⟨by simp [headerPositions, h], getElem?_of_mem_headerSections (by simp [h])⟩
  · rintro ⟨hpositions, ht⟩
    obtain ⟨⟨u, position⟩, hu, rfl⟩ := List.map_eq_singleton_iff.mp hpositions
    have hpiece : (Text.pieces (· == ';') s)[position]? = some u :=
      getElem?_of_mem_headerSections (by simp [hu])
    rw [hu, Option.some.inj (ht.symm.trans hpiece)]

section Faults

variable {hs : List (List Char × Nat)} {first index : Nat}

/-- What is wrong with the header sections of a text. -/
def headerFault? : List (List Char × Nat) → Option HeaderFault
  | [] => some .missing
  | [(t, index)] => if (nameField t).all isBlank then some (.unnamed index) else none
  | (_, first) :: (_, index) :: _ => some (.repeated first index)

theorem headerFault?_eq_missing_iff : headerFault? hs = some .missing ↔ hs.map Prod.snd = [] := by
  match hs with
  | [] => simp [headerFault?]
  | [(t, position)] => simp [headerFault?]
  | _ :: _ :: _ => simp [headerFault?]

theorem headerFault?_eq_repeated_iff :
    headerFault? hs = some (.repeated first index) ↔
      ∃ rest, hs.map Prod.snd = first :: index :: rest := by
  match hs with
  | [] => simp [headerFault?]
  | [(t, position)] => simp [headerFault?]
  | _ :: _ :: _ => simp [headerFault?]

theorem headerFault?_eq_unnamed_iff :
    headerFault? hs = some (.unnamed index) ↔
      ∃ t, hs = [(t, index)] ∧ ∀ c ∈ nameField t, isBlank c = true := by
  match hs with
  | [] => simp [headerFault?]
  | [(t, position)] => simp [headerFault?, and_comm]
  | _ :: _ :: _ => simp [headerFault?]

theorem headerFault?_eq_none_iff :
    headerFault? hs = none ↔
      ∃ t index, hs = [(t, index)] ∧ ∃ c ∈ nameField t, isBlank c = false := by
  match hs with
  | [] => simp [headerFault?]
  | [(t, position)] => simp [headerFault?]
  | _ :: _ :: _ => simp [headerFault?]

end Faults

theorem headers_parts (table : DefaultTable) (s : List Char) :
    headers (parts table s) = (headerSections s).map fun ti => (Part.headerOf ti.1, ti.2) := by
  have hheader : ∀ ti : List Char × Nat,
      (Part.ofText table ti.1).header?.map (·, ti.2) =
        if Writes .header ti.1 then some (Part.headerOf ti.1, ti.2) else none := by
    intro ti
    rw [Part.header?_ofText]
    split <;> rfl
  rw [headers, parts_eq_map, zipIdx_map_ofText, List.filterMap_map, headerSections]
  simp only [Function.comp_def, hheader]
  induction (Text.pieces (· == ';') s).zipIdx with
  | nil => rfl
  | cons ti rest ih => by_cases hw : Writes .header ti.1 <;> simp [hw, ih]

/-- The header sections decide whether a description gives a record, and what is wrong if not. -/
theorem parse_eq_error_iff_headerFault? {id s : String} {fault : HeaderFault} :
    parse table id s = .error fault ↔ headerFault? (headerSections s.toList) = some fault := by
  have hheaders := headers_parts table s.toList
  match hs : headerSections s.toList with
  | [] => simp [parse, hheaders, hs, headerFault?]
  | [(t, index)] =>
    have hname := Part.name_headerOf_eq_empty_iff (t := t)
    by_cases hblank : ∀ c ∈ nameField t, isBlank c = true
    · simp [parse, hheaders, hs, headerFault?, hname.mpr hblank, if_pos hblank]
    · simp [parse, hheaders, hs, headerFault?, mt hname.mp hblank, if_neg hblank]
  | (t, first) :: (u, index) :: rest => simp [parse, hheaders, hs, headerFault?]

theorem exists_parse_iff {id s : String} :
    (∃ p, parse table id s = .ok p) ↔ headerFault? (headerSections s.toList) = none := by
  have herror : ∀ fault, parse table id s = .error fault ↔
      headerFault? (headerSections s.toList) = some fault := fun _ =>
    parse_eq_error_iff_headerFault?
  cases hparse : parse table id s with
  | ok p => simpa [hparse, Option.eq_none_iff_forall_ne_some] using herror
  | error fault => simp [(herror fault).mp hparse]

theorem exists_parse_of_map {β : Type} {id s : String} {f : Parsed → β} {b : β}
    (h : (parse table id s).toOption.map f = some b) : ∃ p, parse table id s = .ok p ∧ f p = b := by
  obtain ⟨p, hp, hf⟩ := Option.map_eq_some_iff.mp h
  cases hparse : parse table id s with
  | error fault => simp [hparse, Except.toOption] at hp
  | ok q => exact ⟨p, by simpa [hparse, Except.toOption] using hp, hf⟩

/-- A description that gives a record has one header section, and the header is named. -/
theorem exists_headerSection_of_parse {id s : String} {p : Parsed} (h : parse table id s = .ok p) :
    ∃ t index, headerSections s.toList = [(t, index)] ∧ (Part.headerOf t).name ≠ "" ∧
      p = ⟨(Part.headerOf t).applyTo
          { toMembers := membersOf (parts table s.toList), id, name := "" },
        diagnosticsOf (parts table s.toList)⟩ := by
  obtain ⟨t, index, hsections, c, hc, hblank⟩ :=
    headerFault?_eq_none_iff.mp (exists_parse_iff.mp ⟨p, h⟩)
  have hname : (Part.headerOf t).name ≠ "" := by
    rw [Ne, Part.name_headerOf_eq_empty_iff]
    exact fun hall => absurd (hall c hc) (by simp [hblank])
  have hheaders : headers (parts table s.toList) = [(Part.headerOf t, index)] := by
    rw [headers_parts, hsections, List.map_singleton]
  simp only [parse, hheaders, hname, if_false, Except.ok.injEq] at h
  exact ⟨t, index, hsections, hname, h.symm⟩

/-- A description fails exactly for a fault of its header sections, at their positions in the text
as it is written: there is none, there are two, or the only one has a blank name. In every other
case it gives a record, and what the other sections hold makes no difference. -/
theorem parse_eq_error_iff (table : DefaultTable) (id s : String) :
    (parse table id s = .error .missing ↔ headerPositions s.toList = []) ∧
      (∀ first index, parse table id s = .error (.repeated first index) ↔
        ∃ rest, headerPositions s.toList = first :: index :: rest) ∧
      (∀ index, parse table id s = .error (.unnamed index) ↔
        headerPositions s.toList = [index] ∧
          ∃ t, (Text.pieces (· == ';') s.toList)[index]? = some t ∧
            ∀ c ∈ nameField t, isBlank c = true) ∧
      ((∃ p, parse table id s = .ok p) ↔
        ∃ index t, headerPositions s.toList = [index] ∧
          (Text.pieces (· == ';') s.toList)[index]? = some t ∧
            ∃ c ∈ nameField t, isBlank c = false) ∧
      ∀ s' : String, headerSections s'.toList = headerSections s.toList →
        ∀ fault, parse table id s' = .error fault ↔ parse table id s = .error fault := by
  simp only [parse_eq_error_iff_headerFault?, exists_parse_iff]
  refine ⟨headerFault?_eq_missing_iff, fun _ _ => headerFault?_eq_repeated_iff, fun index => ?_, ?_,
    fun s' h fault => by rw [h]⟩
  · simp only [headerFault?_eq_unnamed_iff, headerSections_eq_singleton_iff, and_assoc,
      exists_and_left]
  · simp only [headerFault?_eq_none_iff, headerSections_eq_singleton_iff, and_assoc]
    exact exists_comm

end Blueprint.Description
