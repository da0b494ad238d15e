import Blueprint.Record.Basic
import Blueprint.Segment

/-!
# Class headers

The header section holds the class name, its parent and its interfaces as fields between quotes.
The field before the first quote is the tag and is not looked at.
-/
namespace Blueprint

structure Header where
  name : String
  parent : Option String
  interfaces : List String
  deriving DecidableEq

namespace Header

def trimmedField (field : List Char) : String :=
  String.ofList (Text.trim field)

/-- The names between commas, without empty ones. -/
def interfacesOf (field : List Char) : List String :=
  ((Text.pieces (· == ',') field).map trimmedField).filter (· ≠ "")

/-- Reads the fields after the first: name, parent, interfaces. An empty parent is none. -/
def ofSegment (s : Segment) : Header :=
  let fields := s.fields.drop 1
  { name := (fields[0]?.map trimmedField).getD ""
    parent := (fields[1]?.map trimmedField).filter (· ≠ "")
    interfaces := (fields[2]?.map interfacesOf).getD [] }

/-- The record with the header's name, parent and interfaces and the kind that the name stands for. -/
def applyTo (h : Header) (r : ClassRecord) : ClassRecord :=
  { r with
    kind := ClassKind.infer h.name
    name := h.name
    parent := h.parent
    interfaces := h.interfaces }

end Header
end Blueprint
