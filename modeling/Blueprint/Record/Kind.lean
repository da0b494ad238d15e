import Blueprint.Text.Upper

/-!
# Kinds of class

A class name says by convention what the class is: a capital `I` before another capital letter
marks an interface, the ending `Component` a component and the beginning `Global` a global.
-/
namespace Blueprint

inductive ClassKind where
  | interface | component | global | normal
  deriving DecidableEq

namespace ClassKind

def all : List ClassKind :=
  [interface, component, global, normal]

def name : ClassKind → String
  | interface => "interface"
  | component => "component"
  | global => "global"
  | normal => "normal"

def ofName? (text : String) : Option ClassKind :=
  all.find? (·.name == text)

theorem ofName?_name (kind : ClassKind) : ofName? kind.name = some kind := by
  cases kind <;> decide

/-- A capital `I` and another upper-case letter stand at the front. -/
def looksLikeInterface : List Char → Bool
  | 'I' :: c :: _ => Text.isUpper c
  | _ => false

/-- The kind a class name stands for; the first convention that applies decides. -/
def infer (className : String) : ClassKind :=
  let letters := className.toList
  if looksLikeInterface letters then interface
  else if "Component".toList.isSuffixOf letters then component
  else if "Global".toList.isPrefixOf letters then global
  else normal

end ClassKind
end Blueprint
