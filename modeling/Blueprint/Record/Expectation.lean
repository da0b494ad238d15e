import Blueprint.Record.Edit

/-!
# Expectations of a record

An expectation is one statement about a record, such as what its second signal looks like. A record
that does not meet it answers with the place that differs, named as a path into the record. The
fields of a member are compared in order, and the first difference is the answer.
-/
namespace Blueprint

inductive Expectation where
  | nameIs (expected : String)
  | kindIs (expected : ClassKind)
  | parentIs (expected : Option String)
  | interfacesAre (expected : List String)
  | countIs (list : MemberList) (expected : Nat)
  | signalAt (index : Nat) (name : String) (params : List String)
  | constantAt (index : Nat) (name type value : String)
  | enumerationAt (index : Nat) (name : String) (values : List String)
  | propertyAt (group : PropertyGroup) (index : Nat) (name type : String) (default : Option String)
  | functionAt (index : Nat) (name returnType : String) (params : List String) (body : Option String)
  /-- The body of the function is the one that stands for a missing body. -/
  | placeholderAt (index : Nat)
  | componentAt (index : Nat) (name type : String)
  /-- Nothing is declared beyond the header. -/
  | bare
  deriving DecidableEq

namespace Expectation

def groupLabel : PropertyGroup → String
  | .flags => "flags"
  | .current => "current_props"
  | .interface => "interface_props"
  | .unique => "unique_props"

def countLabel : MemberList → String
  | .signals => "signal"
  | .constants => "constant"
  | .enums => "enum"
  | .properties group => groupLabel group
  | .functions => "function"
  | .components => "component"

def mismatch (place : String) : String :=
  place ++ " mismatch"

def firstDifference (place : String) (fields : List (String × Bool)) : Option String :=
  (fields.find? (!·.2)).map fun field => mismatch (place ++ "." ++ field.1)

/-- The failure of the member at an index; an index beyond the list is a failure of its own. -/
def failureAt {α : Type} (label : String) (members : List α) (index : Nat)
    (failure : String → α → Option String) : Option String :=
  let place := label ++ "[" ++ toString index ++ "]"
  match members[index]? with
  | some member => failure place member
  | none => some (place ++ " out of bounds (" ++ toString members.length ++ " entries)")

/-- The failure of a record to meet an expectation, if it does not. -/
def failure? (r : ClassRecord) : Expectation → Option String
  | nameIs expected => if r.name = expected then none else some (mismatch "record name")
  | kindIs expected => if r.kind = expected then none else some (ofRecord "kind")
  | parentIs expected => if r.parent = expected then none else some (ofRecord "parent")
  | interfacesAre expected => if r.interfaces = expected then none else some (ofRecord "interfaces")
  | countIs list expected =>
    if r.count list = expected then none else some (mismatch (countLabel list ++ " count"))
  | signalAt index name params =>
    failureAt "signals" r.signals index fun place s =>
      firstDifference place [("name", s.name == name), ("params", s.params == params)]
  | constantAt index name type value =>
    failureAt "constants" r.constants index fun place c =>
      firstDifference place
        [("name", c.name == name), ("ty", c.type == type), ("value", c.value == value)]
  | enumerationAt index name values =>
    failureAt "enums" r.enums index fun place e =>
      firstDifference place [("name", e.name == name), ("values", e.values == values)]
  | propertyAt group index name type default =>
    failureAt (groupLabel group) (r.properties group) index fun place p =>
      firstDifference place
        [("name", p.name == name), ("ty", p.type == type), ("default", p.default == default)]
  | functionAt index name returnType params body =>
    failureAt "functions" r.functions index fun place f =>
      firstDifference place
        [("name", f.name == name), ("return_type", f.returnType == returnType),
          ("params", f.params == params), ("body", f.body == body)]
  | placeholderAt index =>
    failureAt "functions" r.functions index fun place f =>
      if f.body = some (Function.placeholder f.name) then none
      else some (place ++ ".body is not the placeholder")
  | componentAt index name type =>
    failureAt "components" r.components index fun place c =>
      firstDifference place [("name", c.name == name), ("ty", c.type == type)]
  | bare => if r.isEmpty then none else some ("record '" ++ r.name ++ "' is not bare")
where
  /-- The failure of a part of the header. -/
  ofRecord (part : String) : String :=
    mismatch ("record '" ++ r.name ++ "' " ++ part)

/-- All that a record says apart from its id and position, as expectations. -/
def describing (r : ClassRecord) : List Expectation :=
  [nameIs r.name, kindIs r.kind, parentIs r.parent, interfacesAre r.interfaces] ++
    MemberList.all.map (fun list => countIs list (r.count list)) ++
    r.signals.mapIdx (fun i s => signalAt i s.name s.params) ++
    r.constants.mapIdx (fun i c => constantAt i c.name c.type c.value) ++
    r.enums.mapIdx (fun i e => enumerationAt i e.name e.values) ++
    PropertyGroup.all.flatMap (fun group =>
      (r.properties group).mapIdx fun i p => propertyAt group i p.name p.type p.default) ++
    r.functions.mapIdx (fun i f => functionAt i f.name f.returnType f.params f.body) ++
    r.components.mapIdx (fun i c => componentAt i c.name c.type)

end Expectation
end Blueprint
