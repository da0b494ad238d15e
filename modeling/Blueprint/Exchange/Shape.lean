import Blueprint.Json.Outline
import Blueprint.Text.Display

/-!
# Reading structured data

A shape lists the fields of a structure. A structure is spelled as an object, with its fields in any
order and with keys that the shape does not know, or as a list of its fields in order. The reader
goes through the text from left to right and answers with the first thing that does not fit.
-/
namespace Blueprint.Exchange

/-- How well-formed data fails to be what is expected. -/
inductive Misfit where
  | wrongType (found expected : String)
  | missingField (name : String)
  | duplicateField (name : String)
  | tooShort (length : Nat) (title : String) (fields : Nat)
  | unknownVariant (name : String) (known : List String)
  deriving DecidableEq

def marked (name : String) : String :=
  "`" ++ name ++ "`"

def Misfit.message : Misfit → String
  | wrongType found expected => s!"invalid type: {found}, expected {expected}"
  | missingField name => "missing field " ++ marked name
  | duplicateField name => "duplicate field " ++ marked name
  | tooShort length title fields =>
    s!"invalid length {length}, expected struct {title} with {fields} elements"
  | unknownVariant name known =>
    "unknown variant " ++ marked name ++ ", expected one of " ++
      ", ".intercalate (known.map marked)

/-- Either the text is no JSON up to the point that was read, or its content does not fit. -/
inductive Fault where
  | malformed
  | misfit (m : Misfit)
  deriving DecidableEq

abbrev Read (α : Type) := Except Fault α

open Json (Outline)

/-- How a message names a value, provided that the value itself is well formed. -/
def found : Outline → Read String
  | .null => .ok "null"
  | .bool true => .ok ("boolean " ++ marked "true")
  | .bool false => .ok ("boolean " ++ marked "false")
  | .number n =>
    match n.value? with
    | some (.integer i) => .ok ("integer " ++ marked (toString i))
    | some (.float f) =>
      .ok ("floating point " ++ marked (((Numeral.ofFloat? f).map (String.ofList ·.text)).getD ""))
    | none => .error .malformed
  | .text (some s) => .ok ("string " ++ Text.displayQuoted s)
  | .text none => .error .malformed
  | .list _ _ => .ok "sequence"
  | .object _ _ => .ok "map"
  | .broken => .error .malformed

def mismatch {α : Type} (expected : String) (v : Outline) : Read α := do
  .error (.misfit (.wrongType (← found v) expected))

def text : Outline → Read String
  | .text (some s) => .ok s
  | v => mismatch "a string" v

/-- A text that may be absent. -/
def text? : Outline → Read (Option String)
  | .null => .ok none
  | v => some <$> text v

def float : Outline → Read Float
  | .number n =>
    match n.toFloat? with
    | some f => .ok f
    | none => .error .malformed
  | v => mismatch "f64" v

def listOf {α : Type} (item : Outline → Read α) : Outline → Read (List α)
  | .list items closed => do
    let items ← items.mapM item
    if closed then .ok items else .error .malformed
  | v => mismatch "a sequence" v

/-- A field puts what it reads into the structure read so far. -/
structure Field (σ : Type) where
  name : String
  required : Bool
  read : Outline → σ → Read σ

/-- A structure: its title in messages, its value before any field is read, and its fields in the
order in which they are declared. -/
structure Shape (σ : Type) where
  title : String
  blank : σ
  fields : List (Field σ)

namespace Shape

variable {σ : Type}

/-- Reads the entries of an object in their order. The names in `seen` have been read before. -/
def readEntries (shape : Shape σ) : List (Outline × Outline) → List String → σ →
    Read (List String × σ)
  | [], seen, value => .ok (seen, value)
  | (.text (some key), v) :: rest, seen, value =>
    match shape.fields.find? (·.name == key) with
    | some field => do
      if key ∈ seen then .error (.misfit (.duplicateField key))
      else
        let value ← field.read v value
        readEntries shape rest (key :: seen) value
    | none =>
      if v.isWhole then readEntries shape rest seen value else .error .malformed
  | _ :: _, _, _ => .error .malformed

/-- The first required field whose name is not among those seen. -/
def firstMissing? (shape : Shape σ) (seen : List String) : Option (Field σ) :=
  shape.fields.find? fun field => field.required && !seen.contains field.name

/-- Reads the items of a list into the fields, the first of which is number `index`. A list that is
too short for a required field does not fit; one that is too long is malformed. -/
def readItems (shape : Shape σ) (closed : Bool) :
    List (Field σ) → Nat → List Outline → σ → Read σ
  | field :: fields, index, v :: rest, value => do
    let value ← field.read v value
    readItems shape closed fields (index + 1) rest value
  | field :: fields, index, [], value =>
    if !closed then .error .malformed
    else if field.required then .error (.misfit (.tooShort index shape.title shape.fields.length))
    else readItems shape closed fields (index + 1) [] value
  | [], _, [], value => if closed then .ok value else .error .malformed
  | [], _, _ :: _, _ => .error .malformed

/-- Reads a structure in either spelling. -/
def read (shape : Shape σ) : Outline → Read σ
  | .object entries closed => do
    let (seen, value) ← shape.readEntries entries [] shape.blank
    if !closed then .error .malformed
    else match shape.firstMissing? seen with
      | some field => .error (.misfit (.missingField field.name))
      | none => .ok value
  | .list items closed => shape.readItems closed shape.fields 0 items shape.blank
  | v => mismatch ("struct " ++ shape.title) v

end Shape
end Blueprint.Exchange
