import Blueprint.Decimal.Reading
import Blueprint.Json.Value

/-!
# Reading JSON text

An outline is what a text spells as far as it can be read. Where the text stops being JSON the
outline has a broken value, or a list or object that is not closed, and nothing after that point is
in it. A reader of the outline therefore meets faults in the order in which they stand in the text,
and finds a fault of the content before a fault of the format that comes later.
-/
namespace Blueprint.Json

inductive Outline where
  | null
  | bool (b : Bool)
  | number (n : Numeral)
  /-- A quoted text; it stands for no text when a surrogate in it has no partner. -/
  | text (s : Option String)
  | list (items : List Outline) (closed : Bool)
  /-- What stands in the place of a key can be any value, but only a text is a key. -/
  | object (entries : List (Outline × Outline)) (closed : Bool)
  | broken

namespace Outline

def isBlank (c : Char) : Bool :=
  c == ' ' || c == '\n' || c == '\t' || c == '\r'

def skipBlanks (s : List Char) : List Char :=
  s.dropWhile isBlank

/-- The value after an opening quote. -/
def takeText (s : List Char) : Outline × Option (List Char) :=
  match takeUnits? s with
  | some (units, rest) => (text ((textOfUnits? units).map String.ofList), some rest)
  | none => (broken, none)

def takeNumber (s : List Char) : Outline × Option (List Char) :=
  match Numeral.read? s with
  | some (n, rest) => (number n, some rest)
  | none => (broken, none)

mutual

/-- The value that a text starts with and what follows it; nothing follows a fault. Each level of
nesting and each item takes one unit of fuel. -/
def takeValue : Nat → List Char → Outline × Option (List Char)
  | 0, _ => (broken, none)
  | fuel + 1, s =>
    match skipBlanks s with
    | 'n' :: 'u' :: 'l' :: 'l' :: rest => (null, some rest)
    | 't' :: 'r' :: 'u' :: 'e' :: rest => (bool true, some rest)
    | 'f' :: 'a' :: 'l' :: 's' :: 'e' :: rest => (bool false, some rest)
    | '"' :: rest => takeText rest
    | '[' :: rest =>
      match skipBlanks rest with
      | ']' :: rest => (list [] true, some rest)
      | rest =>
        let (items, after) := takeItems fuel rest
        (list items after.isSome, after)
    | '\x7b' :: rest =>
      match skipBlanks rest with
      | '\x7d' :: rest => (object [] true, some rest)
      | rest =>
        let (entries, after) := takeEntries fuel rest
        (object entries after.isSome, after)
    | rest => takeNumber rest

def takeItems : Nat → List Char → List Outline × Option (List Char)
  | 0, _ => ([], none)
  | fuel + 1, s =>
    match takeValue fuel s with
    | (v, none) => ([v], none)
    | (v, some rest) =>
      match skipBlanks rest with
      | ',' :: rest =>
        let (items, after) := takeItems fuel rest
        (v :: items, after)
      | ']' :: rest => ([v], some rest)
      | _ => ([v], none)

def takeEntries : Nat → List Char → List (Outline × Outline) × Option (List Char)
  | 0, _ => ([], none)
  | fuel + 1, s =>
    match takeValue fuel s with
    | (key, none) => ([(key, broken)], none)
    | (key, some rest) =>
      match skipBlanks rest with
      | ':' :: rest =>
        match takeValue fuel rest with
        | (v, none) => ([(key, v)], none)
        | (v, some rest) =>
          match skipBlanks rest with
          | ',' :: rest =>
            let (entries, after) := takeEntries fuel rest
            ((key, v) :: entries, after)
          | '\x7d' :: rest => ([(key, v)], some rest)
          | _ => ([(key, v)], none)
      | _ => ([(key, broken)], none)

end

/-- The outline of a text, and whether only blanks follow its value. -/
def ofText (source : List Char) : Outline × Bool :=
  match takeValue (2 * source.length + 2) source with
  | (v, some rest) => (v, (skipBlanks rest).isEmpty)
  | (v, none) => (v, false)

mutual

/-- The text can be read to the end of this value. -/
def isWhole : Outline → Bool
  | list items closed => areWhole items && closed
  | object entries closed => entriesAreWhole entries && closed
  | broken => false
  | _ => true

def areWhole : List Outline → Bool
  | [] => true
  | v :: rest => isWhole v && areWhole rest

def entriesAreWhole : List (Outline × Outline) → Bool
  | [] => true
  | (text _, v) :: rest => isWhole v && entriesAreWhole rest
  | _ :: _ => false

end

mutual

def value? : Outline → Option Json
  | null => some .null
  | bool b => some (.bool b)
  | number n => some (.number n)
  | text s => s.map .text
  | list items true => (values? items).map .list
  | object entries true => (entryValues? entries).map .object
  | list _ false | object _ false | broken => none

def values? : List Outline → Option (List Json)
  | [] => some []
  | v :: rest => do
    let v ← value? v
    let rest ← values? rest
    return v :: rest

def entryValues? : List (Outline × Outline) → Option (List (String × Json))
  | [] => some []
  | (text (some key), v) :: rest => do
    let v ← value? v
    let rest ← entryValues? rest
    return (key, v) :: rest
  | _ :: _ => none

end

end Outline

mutual

/-- The outline of the text that a value is written as. -/
def outline : Json → Outline
  | null => .null
  | bool b => .bool b
  | number n => .number n
  | text s => .text (some s)
  | list items => .list (outlines items) true
  | object entries => .object (entryOutlines entries) true

def outlines : List Json → List Outline
  | [] => []
  | v :: rest => outline v :: outlines rest

def entryOutlines : List (String × Json) → List (Outline × Outline)
  | [] => []
  | (key, v) :: rest => (.text (some key), outline v) :: entryOutlines rest

end

def parse? (source : String) : Option Json :=
  match Outline.ofText source.toList with
  | (v, true) => v.value?
  | (_, false) => none

end Blueprint.Json
