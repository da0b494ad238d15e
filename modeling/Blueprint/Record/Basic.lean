import Blueprint.Record.Kind
import Blueprint.Record.Member

/-!
# Class records

A record is one designed class or interface: what its header says, its members and where a diagram
shows it. The id is given when the record is made and nothing changes it.
-/
namespace Blueprint

/-- Where a diagram shows a class. It is carried along and never interpreted. -/
structure Position where
  x : Float := 0
  y : Float := 0
  deriving BEq

structure ClassRecord extends Members where
  id : String
  name : String
  parent : Option String := none
  interfaces : List String := []
  kind : ClassKind := .normal
  position : Position := {}
  deriving BEq

namespace ClassRecord

def hasComponents (r : ClassRecord) : Bool :=
  !r.components.isEmpty

/-- Equality of all but the ids. -/
def sameDesign (r s : ClassRecord) : Bool :=
  r == { s with id := r.id }

end ClassRecord
end Blueprint
