import Blueprint.Description.Basic

/-!
# Ids and the parser that gives them out

Ids are a stem followed by a number that counts up. Every record that is made takes the next one,
and so does every attempt to read a description, whether it succeeds or not.
-/
namespace Blueprint

/-- A stem and the next number to give out. -/
structure IdSource where
  stem : String
  next : Nat := 1

namespace IdSource

/-- The id given out for a number. -/
def nth (stem : String) (number : Nat) : String :=
  stem ++ toString number

def take (ids : IdSource) : String × IdSource :=
  (nth ids.stem ids.next, { ids with next := ids.next + 1 })

/-- The ids of the command and of its library functions. -/
def session : IdSource :=
  { stem := "dsl_" }

end IdSource

/-- Reading descriptions with a table of default literals and an id source that moves on. -/
structure Parser where
  table : DefaultTable
  ids : IdSource

namespace Parser

def takeId : StateM Parser String := fun p =>
  let (id, ids) := p.ids.take
  (id, { p with ids })

/-- Reads one description under a fresh id. -/
def parse (source : String) : StateM Parser (Except HeaderFault Parsed) := do
  let id ← takeId
  return Description.parse (← get).table id source

def create (name : String) (kind : ClassKind) : StateM Parser ClassRecord := do
  let id ← takeId
  return { id, name, kind }

end Parser
end Blueprint
