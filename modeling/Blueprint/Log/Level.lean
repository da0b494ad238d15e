import Blueprint.Decimal.Numeral

/-!
# Levels of the log

A level says how much is logged, from nothing to everything.
-/
namespace Blueprint.Log

inductive Level where
  | off
  | error
  | warn
  | info
  | debug
  | trace
  deriving DecidableEq

namespace Level

/-- The levels, the quietest one first. -/
def all : List Level :=
  [off, error, warn, info, debug, trace]

def name : Level → String
  | off => "off"
  | error => "error"
  | warn => "warn"
  | info => "info"
  | debug => "debug"
  | trace => "trace"

def rank (level : Level) : Nat :=
  all.idxOf level

/-- What is logged at a level includes what is logged at another. -/
def includes (level other : Level) : Bool :=
  other.rank ≤ level.rank

/-- A level is spelled by its name, in letters of any case, or by the number of its place. -/
def ofText? (s : List Char) : Option Level :=
  let digits := match s with
    | '+' :: rest => rest
    | s => s
  if digits ≠ [] ∧ digits.all Char.isDigit then all[Numeral.natOf digits]?
  else all.find? fun level => level.name.toList = s.map Char.toLower

end Level
end Blueprint.Log
