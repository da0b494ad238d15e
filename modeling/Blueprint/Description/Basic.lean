import Blueprint.Description.Header
import Blueprint.Description.Section
import Blueprint.Layout

/-!
# Reading a description

A description is compacted, cut into sections, and each section is read by itself. The record has
the members of all sections in their order, and what its one header says. Only the header can be
at fault: it may be missing, nameless or there twice.
-/
namespace Blueprint

/-- A record and all that was left out of it. -/
structure Parsed where
  record : ClassRecord
  diagnostics : List Diagnostic
  deriving BEq

namespace Description

/-- What one section means for the record. -/
inductive Part where
  | blank
  | unknown (label : String)
  | header (h : Header)
  | content (c : Section.Content)

namespace Part

def ofSegment (table : DefaultTable) (s : Segment) : Part :=
  if s.isBlank then blank
  else match s.tag? with
    | none => unknown (s.label?.getD s.trimmed)
    | some .header => header (Header.ofSegment s)
    | some tag => content (Section.read table tag s)

def header? : Part → Option Header
  | header h => some h
  | _ => none

def members : Part → Members
  | content c => c.members
  | _ => {}

def omissions : Part → List Omission
  | unknown label => [.unknownSection label]
  | content c => c.omissions
  | _ => []

end Part

/-- The parts of a source, one for each section. -/
def parts (table : DefaultTable) (source : List Char) : List Part :=
  (Segment.sections (Layout.compact source)).map (Part.ofSegment table)

/-- The headers among the parts with their positions. -/
def headers (ps : List Part) : List (Header × Nat) :=
  ps.zipIdx.filterMap fun (p, index) => p.header?.map (·, index)

/-- The members of all parts, in order. -/
def membersOf (ps : List Part) : Members :=
  ps.foldr (fun p rest => p.members ++ rest) {}

/-- The omissions of all parts, each with the position of its part. -/
def diagnosticsOf (ps : List Part) : List Diagnostic :=
  ps.zipIdx.flatMap fun (p, index) => p.omissions.map (⟨index, ·⟩)

/-- The record that a description stands for, under the given id. -/
def parse (table : DefaultTable) (id : String) (source : String) : Except HeaderFault Parsed :=
  let ps := parts table source.toList
  match headers ps with
  | [] => .error .missing
  | [(header, index)] =>
    if header.name = "" then .error (.unnamed index)
    else .ok ⟨header.applyTo { toMembers := membersOf ps, id, name := "" }, diagnosticsOf ps⟩
  | (_, first) :: (_, index) :: _ => .error (.repeated first index)

end Description
end Blueprint
