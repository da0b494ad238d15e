import Blueprint.Token

/-!
# Layout of a description

A description has two cosmetic forms. The compact form keeps one space for each gap that separates
two words or lists, and none beside a quote, a `;` or the ends of the text. The spread form puts
each section on a line of its own and pads the quotes.
-/
namespace Blueprint.Layout

/-- Whether a gap between two neighbours, absent at the ends of the text, separates anything. -/
def separates (before after : Option Token) : Bool :=
  match before, after with
  | some l, some r => !l.absorbsGap && !r.absorbsGap
  | _, _ => false

/-- The compact form of a token list that follows the token `before`. -/
def compactAfter (before : Option Token) : List Token → List Char
  | [] => []
  | .gap blanks :: rest =>
    (if separates before rest.head? then [' '] else []) ++ compactAfter (some (.gap blanks)) rest
  | t :: rest => t.text ++ compactAfter (some t) rest

/-- The text with each gap reduced to a single space or to nothing. -/
def compact (source : List Char) : List Char :=
  compactAfter none (Token.lex source)

/-- The padded form of a token. -/
def padded : Token → List Char
  | .sectionMark => ";\n".toList
  | .columnMark => " '   ' ".toList
  | .fieldMark => " ' ".toList
  | t => t.text

/-- The text laid out for reading. -/
def spread (source : List Char) : List Char :=
  (Token.lex source).flatMap padded

end Blueprint.Layout
