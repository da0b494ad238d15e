import Blueprint.Log.Directive
import Blueprint.Log.Event

/-!
# Log filters

A filter is a list of directives between commas. The most particular of those that speak of an event
decides whether it is logged. A filter with a malformed directive is replaced by one that logs
warnings.
-/
namespace Blueprint.Log

namespace Directive

/-- Whether a directive can speak of events outside of spans: it names no span, and asks for no
value of a field, which only a span can have. -/
def isFree (d : Directive) : Bool :=
  d.span.isNone && !(d.field.any (·.hasValue))

/-- The directive speaks of an event: the event's target starts with the one asked for, and it has
the field asked for. -/
def speaksOf (d : Directive) (event : Event) : Bool :=
  d.isFree && d.target.all (event.target.startsWith ·) &&
    d.field.all (event.fieldNames.contains ·.name)

/-- A longer target is more particular, and any target more than none. -/
def targetRank (d : Directive) : Nat :=
  match d.target with
  | some target => target.utf8ByteSize + 1
  | none => 0

/-- The name of the field that a directive asks for. A later name is more particular, and any name
more than none, which counts as the empty name. -/
def fieldRank (d : Directive) : String :=
  match d.field with
  | some field => field.name
  | none => ""

/-- A directive is at most as particular as another. -/
def yieldsTo (d other : Directive) : Bool :=
  d.targetRank < other.targetRank ||
    (d.targetRank == other.targetRank && !(decide (other.fieldRank < d.fieldRank)))

end Directive

structure Filter where
  directives : List Directive
  deriving DecidableEq

namespace Filter

def fallback : Filter :=
  ⟨[{ level := .warn }]⟩

/-- The filter without directives, which logs errors. -/
def quiet : Filter :=
  ⟨[{ level := .error }]⟩

/-- Reads a filter. Empty directives do not count, and nothing behind a fault is read. A part that
splits a character cannot be read at all; the directive with that part is the error. -/
def ofText (text : String) : Except (List Char) Filter :=
  match ((Text.pieces (· == ',') text.toList).filter (· ≠ [])).mapM Directive.read with
  | .ok [] => .ok quiet
  | .ok directives => .ok ⟨directives⟩
  | .error .malformed => .ok fallback
  | .error (.splitCharacter directive) => .error directive

/-- The directive that decides on an event. Of two that are as particular it is the later one. -/
def deciding? (filter : Filter) (event : Event) : Option Directive :=
  (filter.directives.filter (·.speaksOf event)).foldl
    (fun best d => if best.all (·.yieldsTo d) then some d else best) none

/-- Whether an event is logged. -/
def logs (filter : Filter) (event : Event) : Bool :=
  (filter.deciding? event).any (·.level.includes event.level)

/-- The longest part from the front of a text that fits into so many bytes. -/
def clip : Nat → List Char → List Char
  | _, [] => []
  | size, c :: s => if c.utf8Size ≤ size then c :: clip (size - c.utf8Size) s else []

def shownSize : Nat := 256

/-- What is said of a directive with a part that splits a character. Its start is shown, with a mark
if something is left out. -/
def splitNotice (directive : List Char) : String :=
  let start := clip shownSize directive
  "a part begins or ends inside a character of `" ++ String.ofList start ++ "`" ++
    if start = directive then "" else "[...]"

end Filter
end Blueprint.Log
