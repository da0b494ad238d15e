import Blueprint.Text.Blank

/-!
# Tokens of a class description

A description is a run of characters in which `;`, `'`, `|` and `,` are marks. Two quotes that
stand side by side are one mark, read from left to right; a run of blanks is one token, and so is
a run of all other characters. The tokens of a text joined together are the text.
-/
namespace Blueprint

/-- One lexical unit. Only gaps and words carry text of their own. -/
inductive Token where
  | sectionMark
  | columnMark
  | fieldMark
  | bar
  | comma
  | gap (blanks : List Char)
  | word (letters : List Char)
  deriving DecidableEq

namespace Token

/-- The sorts of token at which a text can be cut. -/
inductive Kind where
  | sectionMark | columnMark | fieldMark | bar | comma | gap | word
  deriving DecidableEq

def kind : Token → Kind
  | sectionMark => .sectionMark
  | columnMark => .columnMark
  | fieldMark => .fieldMark
  | bar => .bar
  | comma => .comma
  | gap _ => .gap
  | word _ => .word

def text : Token → List Char
  | sectionMark => [';']
  | columnMark => ['\'', '\'']
  | fieldMark => ['\'']
  | bar => ['|']
  | comma => [',']
  | gap blanks => blanks
  | word letters => letters

def byteSize (t : Token) : Nat :=
  Text.byteSize t.text

def isGap : Token → Bool
  | gap _ => true
  | _ => false

def isQuote : Token → Bool
  | columnMark | fieldMark => true
  | _ => false

/-- A gap next to one of these marks means nothing. -/
def absorbsGap : Token → Bool
  | sectionMark | columnMark | fieldMark => true
  | _ => false

/-- The characters that no word and no gap holds. -/
def isMark (c : Char) : Bool :=
  c == ';' || c == '\'' || c == '|' || c == ','

/-- A blank put before a token list joins the gap that it starts with. -/
def consGap (c : Char) : List Token → List Token
  | gap blanks :: rest => gap (c :: blanks) :: rest
  | rest => gap [c] :: rest

/-- A letter put before a token list joins the word that it starts with. -/
def consWord (c : Char) : List Token → List Token
  | word letters :: rest => word (c :: letters) :: rest
  | rest => word [c] :: rest

/-- A character, which is not half of a pair of quotes, put before a token list. -/
def consChar (c : Char) (rest : List Token) : List Token :=
  if c = ';' then sectionMark :: rest
  else if c = '\'' then fieldMark :: rest
  else if c = '|' then bar :: rest
  else if c = ',' then comma :: rest
  else if Text.isBlank c then consGap c rest
  else consWord c rest

/-- The tokens of a text. -/
def lex : List Char → List Token
  | [] => []
  | '\'' :: '\'' :: rest => columnMark :: lex rest
  | c :: rest => consChar c (lex rest)

/-- The text of a token list. -/
def textOf (tokens : List Token) : List Char :=
  tokens.flatMap text

@[simp] theorem textOf_nil : textOf [] = [] := rfl

@[simp] theorem textOf_cons (t : Token) (rest : List Token) :
    textOf (t :: rest) = t.text ++ textOf rest := rfl

@[simp] theorem textOf_append (l r : List Token) : textOf (l ++ r) = textOf l ++ textOf r := by
  simp [textOf]

theorem textOf_consGap (c : Char) (rest : List Token) :
    textOf (consGap c rest) = c :: textOf rest := by
  unfold consGap
  split <;> rfl

theorem textOf_consWord (c : Char) (rest : List Token) :
    textOf (consWord c rest) = c :: textOf rest := by
  unfold consWord
  split <;> rfl

theorem textOf_consChar (c : Char) (rest : List Token) :
    textOf (consChar c rest) = c :: textOf rest := by
  unfold consChar
  split
  · simp_all [text]
  split
  · simp_all [text]
  split
  · simp_all [text]
  split
  · simp_all [text]
  split
  · exact textOf_consGap c rest
  · exact textOf_consWord c rest

theorem textOf_lex (source : List Char) : textOf (lex source) = source := by
  fun_induction lex source with
  | case1 => rfl
  | case2 rest ih => simp [text, ih]
  | case3 c rest _ ih => rw [textOf_consChar, ih]

/-- Each token with the byte offsets of its two ends, counted from `start`. -/
def spans (start : Nat) : List Token → List (Token × Nat × Nat)
  | [] => []
  | t :: rest => (t, start, start + t.byteSize) :: spans (start + t.byteSize) rest

end Token
end Blueprint
