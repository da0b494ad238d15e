import Blueprint.Text.Hex

/-!
# Quoted TOML texts

There are four kinds of quoted text: basic ones, in which a backslash starts an escape, and literal
ones, each on a single line or over several. Each reader starts after the opening quotes and answers
with the text and what follows the closing quotes.
-/
namespace Blueprint.Toml

def consTaken (c : Option Char) (taken : Option (List Char × List Char)) : Option (List Char × List Char) :=
  c.bind fun c => taken.map fun (letters, rest) => (c :: letters, rest)

/-- The characters that a text or comment may hold within a line. -/
def isPlain (c : Char) : Bool :=
  c == '\t' || (0x20 ≤ c.toNat && c.toNat != 0x7F)

def shortEscape? : Char → Option Char
  | 'b' => some (Char.ofNat 0x08)
  | 't' => some '\t'
  | 'n' => some '\n'
  | 'f' => some (Char.ofNat 0x0C)
  | 'r' => some '\r'
  | '"' => some '"'
  | '\\' => some '\\'
  | _ => none

def scalar? (digits : List Char) : Option Char :=
  (Text.hexNumber? digits).bind fun n => if n.isValidChar then some (Char.ofNat n) else none

def takeBasic : List Char → Option (List Char × List Char)
  | [] => none
  | '"' :: rest => some ([], rest)
  | '\\' :: 'u' :: a :: b :: c :: d :: rest =>
    consTaken (scalar? [a, b, c, d]) (takeBasic rest)
  | '\\' :: 'U' :: a :: b :: c :: d :: e :: f :: g :: h :: rest =>
    consTaken (scalar? [a, b, c, d, e, f, g, h]) (takeBasic rest)
  | '\\' :: e :: rest =>
    consTaken (shortEscape? e) (takeBasic rest)
  | c :: rest => if c != '\\' && isPlain c then consTaken (some c) (takeBasic rest) else none

def takeLiteral : List Char → Option (List Char × List Char)
  | [] => none
  | '\'' :: rest => some ([], rest)
  | c :: rest => if isPlain c then consTaken (some c) (takeLiteral rest) else none

/-- A line break right after the opening quotes does not count. -/
def dropBreak : List Char → List Char
  | '\n' :: rest => rest
  | '\r' :: '\n' :: rest => rest
  | s => s

/-- Only blanks stand before the end of the line. -/
def breaksLine (s : List Char) : Bool :=
  match s.dropWhile fun c => c == ' ' || c == '\t' with
  | '\n' :: _ | '\r' :: '\n' :: _ => true
  | _ => false

/-- Reads a basic text over several lines. After a backslash at the end of a line, blanks and line
breaks are skipped. Up to two quotes can stand right before the closing ones. -/
def takeBasicLines (skipping : Bool) : List Char → Option (List Char × List Char)
  | [] => none
  | '"' :: '"' :: '"' :: '"' :: '"' :: rest => some (['"', '"'], rest)
  | '"' :: '"' :: '"' :: '"' :: rest => some (['"'], rest)
  | '"' :: '"' :: '"' :: rest => some ([], rest)
  | '\\' :: 'u' :: a :: b :: c :: d :: rest =>
    consTaken (scalar? [a, b, c, d]) (takeBasicLines false rest)
  | '\\' :: 'U' :: a :: b :: c :: d :: e :: f :: g :: h :: rest =>
    consTaken (scalar? [a, b, c, d, e, f, g, h]) (takeBasicLines false rest)
  | '\r' :: '\n' :: rest =>
    if skipping then takeBasicLines true rest else consTaken (some '\n') (takeBasicLines false rest)
  | '\\' :: e :: rest =>
    if breaksLine (e :: rest) then takeBasicLines true (e :: rest)
    else consTaken (shortEscape? e) (takeBasicLines false rest)
  | c :: rest =>
    if skipping && (c == ' ' || c == '\t' || c == '\n') then takeBasicLines true rest
    else if c == '\n' || (c != '\\' && isPlain c) then consTaken (some c) (takeBasicLines false rest)
    else none

def takeLiteralLines : List Char → Option (List Char × List Char)
  | [] => none
  | '\'' :: '\'' :: '\'' :: '\'' :: '\'' :: rest => some (['\'', '\''], rest)
  | '\'' :: '\'' :: '\'' :: '\'' :: rest => some (['\''], rest)
  | '\'' :: '\'' :: '\'' :: rest => some ([], rest)
  | '\r' :: '\n' :: rest => consTaken (some '\n') (takeLiteralLines rest)
  | c :: rest => if c == '\n' || isPlain c then consTaken (some c) (takeLiteralLines rest) else none

/-- Reads a quoted text of any kind from its opening quotes on. -/
def takeQuoted : List Char → Option (String × List Char)
  | '"' :: '"' :: '"' :: rest => asText (takeBasicLines false (dropBreak rest))
  | '"' :: rest => asText (takeBasic rest)
  | '\'' :: '\'' :: '\'' :: rest => asText (takeLiteralLines (dropBreak rest))
  | '\'' :: rest => asText (takeLiteral rest)
  | _ => none
where
  asText (t : Option (List Char × List Char)) : Option (String × List Char) :=
    t.map fun (letters, rest) => (String.ofList letters, rest)

end Blueprint.Toml
