import Blueprint.Tag
import Blueprint.Text.Pieces
import Blueprint.Token

/-!
# Segments

A segment is a stretch of a description: the tokens in it and the byte offset where it starts.
Sections, columns and list entries are segments, each obtained by cutting the one around it at one
kind of token.
-/
namespace Blueprint

structure Segment where
  start : Nat
  tokens : List Token
  deriving DecidableEq

namespace Segment

/-- A whole text as one segment. -/
def ofText (source : List Char) : Segment :=
  ⟨0, Token.lex source⟩

def text (s : Segment) : List Char :=
  Token.textOf s.tokens

/-- The offset just after the segment. -/
def stop (s : Segment) : Nat :=
  s.start + Text.byteSize s.text

def trimmed (s : Segment) : String :=
  String.ofList (Text.trim s.text)

/-- A segment of gaps alone. -/
def isBlank (s : Segment) : Bool :=
  s.tokens.all Token.isGap

/-- The first part of a token list before a token of the given kind, and the parts after it. -/
def cutTokens (kind : Token.Kind) (start : Nat) : List Token → Segment × List Segment
  | [] => (⟨start, []⟩, [])
  | t :: rest =>
    let after := cutTokens kind (start + t.byteSize) rest
    if t.kind = kind then (⟨start, []⟩, after.1 :: after.2)
    else (⟨start, t :: after.1.tokens⟩, after.2)

/-- The parts of a segment between its tokens of the given kind, empty parts included. -/
def cut (kind : Token.Kind) (s : Segment) : List Segment :=
  let parts := cutTokens kind s.start s.tokens
  parts.1 :: parts.2

/-- The sections of a text. -/
def sections (source : List Char) : List Segment :=
  (ofText source).cut .sectionMark

def columns (s : Segment) : List Segment :=
  s.cut .columnMark

/-- The word a segment starts with, when a quote directly follows it. -/
def label? (s : Segment) : Option String :=
  match s.tokens with
  | .word letters :: next :: _ => if next.isQuote then some (String.ofList letters) else none
  | _ => none

def tag? (s : Segment) : Option Tag :=
  s.label?.bind Tag.ofCode?

/-- The texts between single quotes, where two quotes side by side hold an empty text. -/
def fieldsOf : List Token → List (List Char)
  | [] => [[]]
  | .fieldMark :: rest => [] :: fieldsOf rest
  | .columnMark :: rest => [] :: [] :: fieldsOf rest
  | t :: rest => (fieldsOf rest).modifyHead (t.text ++ ·)

def fields (s : Segment) : List (List Char) :=
  fieldsOf s.tokens

/-- The first column of a section without the tag and its quote. -/
def withoutTag (s : Segment) : Segment :=
  match s.tokens with
  | .word letters :: .fieldMark :: rest => ⟨s.start + Text.byteSize letters + 1, rest⟩
  | [.word letters] => ⟨s.start + Text.byteSize letters, []⟩
  | _ => s

/-- The trimmed texts between commas, with empty ones kept so that positions line up. -/
def items (s : Segment) : List String :=
  (s.cut .comma).map trimmed

/-- The lists between bars, each without its empty items. -/
def groups (s : Segment) : List (List String) :=
  (s.cut .bar).map fun group => group.items.filter (· ≠ "")

end Segment
end Blueprint
