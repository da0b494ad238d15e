import Blueprint.Log.Level
import Blueprint.Pattern.Expression
import Blueprint.Text.Pieces

/-!
# Directives of a log filter

A directive such as `warn`, `engine=debug` or `engine[span{field=value}]=5` has a target or a span
with a field, and a level; the value of a field is a number or a pattern. A directive is scanned
without the blanks around it, but its parts are cut out of the whole text, at the byte positions
that the scan counts. So blanks in front of a directive shift its parts, and a part may then begin
or end inside a character.
-/
namespace Blueprint.Log

structure Field where
  name : String
  /-- The field must also have a value. -/
  hasValue : Bool
  deriving DecidableEq

structure Directive where
  level : Level := .trace
  target : Option String := none
  span : Option String := none
  field : Option Field := none
  deriving DecidableEq

/-- What is wrong with a directive. -/
inductive Fault where
  | malformed
  /-- A part of this directive begins or ends inside a character. -/
  | splitCharacter (directive : List Char)
  deriving DecidableEq

/-- What follows the given number of bytes of a text, if a character ends there. -/
def dropBytes? : Nat → List Char → Option (List Char)
  | 0, s => some s
  | _ + 1, [] => none
  | n + 1, c :: s => if c.utf8Size ≤ n + 1 then dropBytes? (n + 1 - c.utf8Size) s else none

/-- The given number of bytes that a text starts with, if a character ends there. -/
def takeBytes? : Nat → List Char → Option (List Char)
  | 0, _ => some []
  | _ + 1, [] => none
  | n + 1, c :: s =>
    if c.utf8Size ≤ n + 1 then (takeBytes? (n + 1 - c.utf8Size) s).map (c :: ·) else none

/-- The part of a directive between two byte positions. -/
def cut (s : List Char) (start stop : Nat) : Except Fault (List Char) :=
  match (dropBytes? start s).bind (takeBytes? (stop - start)) with
  | some part => .ok part
  | none => .error (.splitCharacter s)

/-- A number: digits, perhaps with a point and an exponent, or a word for a number that has none. -/
def isNumber (s : List Char) : Bool :=
  let unsigned (s : List Char) := match s with
    | '+' :: rest | '-' :: rest => rest
    | s => s
  let s := (unsigned s).map Char.toLower
  let mantissa := s.takeWhile (· != 'e')
  let digits := (Text.pieces (· == '.') mantissa).flatten
  let isExponent := match s.dropWhile (· != 'e') with
    | [] => true
    | _ :: exponent => unsigned exponent ≠ [] && (unsigned exponent).all Char.isDigit
  ["inf", "infinity", "nan"].contains (String.ofList s) ||
    (digits ≠ [] && digits.all Char.isDigit && mantissa.count '.' ≤ 1 && isExponent)

/-- Reads a field, which must not be empty. Its value is a number or a pattern, and ends at a second
equals sign. -/
def Field.ofText? (s : List Char) : Option Field :=
  match Text.pieces (· == '=') s with
  | name :: value :: _ =>
    if isNumber value || Pattern.isValid value then some ⟨String.ofList name, true⟩ else none
  | _ => if s = [] then none else some ⟨String.ofList s, false⟩

namespace Directive

/-- How far the scan of a directive has come, and where the part that is being scanned starts. -/
inductive State where
  | beginning
  /-- The target, or the level of a directive that has no target. -/
  | target (start : Nat)
  | span (start : Nat)
  | field (start : Nat)
  | afterField
  | afterSpan
  | level (start : Nat)
  deriving DecidableEq

/-- The characters that a directive can start with, a bracket apart. -/
def startsTarget (c : Char) : Bool :=
  c == '-' || c == ':' || c == '_' || Text.isAlphanumeric c

/-- Goes on by a character that stands at a byte position, and keeps the parts that end there. -/
def next (s : List Char) (position : Nat) (c : Char) (found : Directive) :
    State → Except Fault (State × Directive)
  | .beginning =>
    if c = '[' then .ok (.span (position + 1), found)
    else if startsTarget c then .ok (.target position, found)
    else .error .malformed
  | .target start =>
    if c = '=' ∨ c = '[' then do
      let part ← cut s start position
      let after := if c = '=' then State.level else State.span
      return (after (position + 1), { found with target := some (String.ofList part) })
    else .ok (.target start, found)
  | .span start =>
    if c = ']' then do
      let part ← cut s start position
      return (.afterSpan, { found with span := some (String.ofList part) })
    else if c = '\x7b' then do
      let part ← cut s start position
      let span := if part = [] then none else some (String.ofList part)
      return (.field (position + 1), { found with span })
    else .ok (.span start, found)
  | .field start =>
    if c ≠ '\x7d' then .ok (.field start, found)
    else do
      match Field.ofText? (← cut s start position) with
      | some field => return (.afterField, { found with field := some field })
      | none => .error .malformed
  | .afterField => if c = ']' then .ok (.afterSpan, found) else .error .malformed
  | .afterSpan => if c = '=' then .ok (.level (position + 1), found) else .error .malformed
  | .level start => .ok (.level start, found)

def scan (s : List Char) : Nat → List Char → State × Directive → Except Fault (State × Directive)
  | _, [], reached => .ok reached
  | position, c :: rest, (state, found) => do
    scan s (position + c.utf8Size) rest (← next s position c found state)

/-- Ends the scan. What may be a target is the level, if it spells one. A level that was begun may
be empty, and everything is logged when no level is given. -/
def finish (s : List Char) : State × Directive → Except Fault Directive
  | (.target start, found) => do
    let part ← cut s start (Text.byteSize s)
    match Level.ofText? part with
    | some level => return { found with level }
    | none => return { found with target := some (String.ofList part) }
  | (.level start, found) => do
    let part ← cut s start (Text.byteSize s)
    match part, Level.ofText? part with
    | [], _ => return found
    | _, some level => return { found with level }
    | _, none => .error .malformed
  | (.afterSpan, found) => .ok found
  | (.beginning, _) | (.span _, _) | (.field _, _) | (.afterField, _) => .error .malformed

def read (s : List Char) : Except Fault Directive := do
  finish s (← scan s 0 (Text.trim s) (.beginning, {}))

end Directive
end Blueprint.Log
