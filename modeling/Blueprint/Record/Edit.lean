import Blueprint.Record.Basic

/-!
# Editing members

A record is edited one member at a time: a member is added at the end of its list, or removed from
its place in the list.
-/
namespace Blueprint

inductive Member where
  | signal (s : Signal)
  | constant (c : Constant)
  | enumeration (e : Enumeration)
  | property (group : PropertyGroup) (p : Property)
  | function (f : Function)
  | component (c : Component)
  deriving DecidableEq

/-- The lists that a record keeps its members in. -/
inductive MemberList where
  | signals
  | constants
  | enums
  | properties (group : PropertyGroup)
  | functions
  | components
  deriving DecidableEq

def MemberList.all : List MemberList :=
  [signals, constants, enums] ++ PropertyGroup.all.map properties ++ [functions, components]

namespace Members

def add (m : Members) : Member → Members
  | .signal s => { m with signals := m.signals ++ [s] }
  | .constant c => { m with constants := m.constants ++ [c] }
  | .enumeration e => { m with enums := m.enums ++ [e] }
  | .property group p => m.withProperties group (m.properties group ++ [p])
  | .function f => { m with functions := m.functions ++ [f] }
  | .component c => { m with components := m.components ++ [c] }

def count (m : Members) : MemberList → Nat
  | .signals => m.signals.length
  | .constants => m.constants.length
  | .enums => m.enums.length
  | .properties group => (m.properties group).length
  | .functions => m.functions.length
  | .components => m.components.length

/-- Removes the member at a place in a list, if there is one. -/
def remove? (m : Members) (list : MemberList) (index : Nat) : Option Members :=
  if index < m.count list then
    some <| match list with
      | .signals => { m with signals := m.signals.eraseIdx index }
      | .constants => { m with constants := m.constants.eraseIdx index }
      | .enums => { m with enums := m.enums.eraseIdx index }
      | .properties group => m.withProperties group ((m.properties group).eraseIdx index)
      | .functions => { m with functions := m.functions.eraseIdx index }
      | .components => { m with components := m.components.eraseIdx index }
  else none

end Members
end Blueprint
