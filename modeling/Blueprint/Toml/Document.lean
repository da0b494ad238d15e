import Blueprint.Toml.Number
import Blueprint.Toml.Quoted
import Blueprint.Toml.Table

/-!
# TOML documents

A document holds comments, keys with their values, and the headers of tables and of lists of tables.
Values are quoted texts, numbers, booleans, dates and times, lists and inline tables. Nesting has a
limit, and so has the length of a dotted key. A document is read whole or not at all.
-/
namespace Blueprint.Toml

def skipSpace (s : List Char) : List Char :=
  s.dropWhile fun c => c == ' ' || c == '\t'

/-- What follows the end of the line, when nothing but a comment stands before it. -/
def endLine (inComment : Bool) : List Char → Option (List Char)
  | [] => some []
  | '\n' :: rest => some rest
  | '\r' :: '\n' :: rest => some rest
  | c :: rest =>
    if inComment then if isPlain c then endLine true rest else none
    else if c == ' ' || c == '\t' then endLine false rest
    else if c == '#' then endLine true rest
    else none

/-- What follows blanks, line breaks and comments. -/
def skipLayout (inComment : Bool) : List Char → Option (List Char)
  | [] => some []
  | '\n' :: rest => skipLayout false rest
  | '\r' :: '\n' :: rest => skipLayout false rest
  | c :: rest =>
    if inComment then if isPlain c then skipLayout true rest else none
    else if c == ' ' || c == '\t' then skipLayout false rest
    else if c == '#' then skipLayout true rest
    else some (c :: rest)

def isBare (c : Char) : Bool :=
  c.isAlphanum || c == '_' || c == '-'

def takeSimpleKey (s : List Char) : Option (String × List Char) :=
  match s with
  | '"' :: rest => (takeBasic rest).map fun (letters, rest) => (String.ofList letters, rest)
  | '\'' :: rest => (takeLiteral rest).map fun (letters, rest) => (String.ofList letters, rest)
  | s =>
    match s.takeWhile isBare with
    | [] => none
    | bare => some (String.ofList bare, s.dropWhile isBare)

/-- How deep lists and inline tables can be nested, and how many parts a dotted key can have. -/
def depthLimit : Nat := 79

def takeParts : Nat → List Char → Option (List String × List Char)
  | 0, _ => none
  | limit + 1, s => do
    let (first, rest) ← takeSimpleKey (skipSpace s)
    match skipSpace rest with
    | '.' :: rest => do
      let (parts, rest) ← takeParts limit rest
      return (first :: parts, rest)
    | rest => return ([first], rest)

def takeKey (s : List Char) : Option (List String × List Char) :=
  takeParts depthLimit s

/-- The value of a word: a boolean or an integer. -/
def ofWord? (word : List Char) : Option Toml :=
  if word = "true".toList then some (.bool true)
  else if word = "false".toList then some (.bool false)
  else (integerOf? word).map .integer

def isWordChar (c : Char) : Bool :=
  isBare c || c == '+'

/-- The value that stands without quotes or brackets: a date or time where it can be one, else a
float, else a word. -/
def takePlain? (s : List Char) : Option (Toml × List Char) :=
  match DateTime.take? .plain s with
  | some (t, rest) => some (.dateTime t, rest)
  | none =>
    match takeFloat? s with
    | some (f, rest) => some (.float f, rest)
    | none => (ofWord? (s.takeWhile isWordChar)).map fun v => (v, s.dropWhile isWordChar)

mutual

/-- The value that a text starts with, which may be nested to the given depth. Each level of nesting
and each item takes one unit of fuel. -/
def takeValue (depth : Nat) : Nat → List Char → Option (Toml × List Char)
  | 0, _ => none
  | fuel + 1, s =>
    match s with
    | '"' :: _ | '\'' :: _ => (takeQuoted s).map fun (content, rest) => (.text content, rest)
    | '[' :: rest =>
      match depth with
      | 0 => none
      | depth + 1 => (takeItems depth fuel rest).map fun (items, rest) => (.list items, rest)
    | '\x7b' :: rest =>
      match depth, skipSpace rest with
      | 0, _ => none
      | _ + 1, '\x7d' :: rest => some (.table .inline [], rest)
      | depth + 1, rest =>
        (takeEntries depth fuel [] rest).map fun (entries, rest) => (.table .inline entries, rest)
    | s => takePlain? s

def takeItems (depth : Nat) : Nat → List Char → Option (List Toml × List Char)
  | 0, _ => none
  | fuel + 1, s => do
    match ← skipLayout false s with
    | ']' :: rest => return ([], rest)
    | s => do
      let (v, rest) ← takeValue depth fuel s
      match ← skipLayout false rest with
      | ',' :: rest => do
        let (items, rest) ← takeItems depth fuel rest
        return (v :: items, rest)
      | ']' :: rest => return ([v], rest)
      | _ => none

def takeEntries (depth : Nat) : Nat → Table → List Char → Option (Table × List Char)
  | 0, _, _ => none
  | fuel + 1, t, s => do
    let (key, rest) ← takeKey s
    match rest with
    | '=' :: rest => do
      let (v, rest) ← takeValue depth fuel (skipSpace rest)
      let t ← t.define v key
      match skipSpace rest with
      | ',' :: rest => takeEntries depth fuel t rest
      | '\x7d' :: rest => return (t, rest)
      | _ => none
    | _ => none

end

/-- Reads lines into a table. Keys go into the table at the path that the last header named. -/
def takeLines : Nat → Table → List String → List Char → Option Table
  | 0, _, _, _ => none
  | fuel + 1, t, path, s =>
    match skipSpace s with
    | [] => some t
    | '[' :: '[' :: rest => do
      let (header, rest) ← takeKey rest
      match rest with
      | ']' :: ']' :: rest => do
        let t ← t.declare Table.addTable header
        takeLines fuel t header (← endLine false rest)
      | _ => none
    | '[' :: rest => do
      let (header, rest) ← takeKey rest
      match rest with
      | ']' :: rest => do
        let t ← t.declare Table.stateTable header
        takeLines fuel t header (← endLine false rest)
      | _ => none
    | s =>
      match endLine false s with
      | some rest => takeLines fuel t path rest
      | none => do
        let (key, rest) ← takeKey s
        match rest with
        | '=' :: rest => do
          let (v, rest) ← takeValue depthLimit (2 * rest.length + 2) (skipSpace rest)
          let t ← t.within (Table.define v key) path
          takeLines fuel t path (← endLine false rest)
        | _ => none

/-- The table that a document spells. A byte order mark may stand at its front. -/
def parse? (source : String) : Option Table :=
  let s := match source.toList with
    | '\ufeff' :: rest => rest
    | s => s
  takeLines (s.length + 1) [] [] s

end Blueprint.Toml
