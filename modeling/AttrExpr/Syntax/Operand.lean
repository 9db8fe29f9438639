import AttrExpr.Syntax.Token
import AttrExpr.Binary64.Read

/-!
# Operand grammars and the class of a word body

A *number* is written with ASCII digits and the characters `+ - . e E` only, and is a binary64
literal (`AttrExpr.Binary64.parseLiteral?`); so `1.`, `.5`, `007` and `1e400` are numbers, and
`inf`, `nan`, `1_0` and `0x1` are not.

An *attribute path* has exactly four segments separated by `/`. A segment starts with an ASCII
letter, an ASCII digit or `-`, and contains no space, `(` or `)`; other characters, tabs and
non-ASCII letters included, may follow the first.

A word body is classified by testing, in order: `(`, `)`, an operator, a number, a path.

## Main definitions

* `AttrExpr.isNumber`, `AttrExpr.isAttribute`, `AttrExpr.isOperator`
* `AttrExpr.splitSlash` — the segments between slashes
* `AttrExpr.classify` — the class of a word body
-/

namespace AttrExpr

/-- The characters a number may be written with. -/
def isNumberChar (c : Char) : Bool :=
  c.isDigit || c == '+' || c == '-' || c == '.' || c == 'e' || c == 'E'

/-- A non-empty literal written with number characters only. -/
def isNumber (t : String) : Bool :=
  !t.isEmpty && t.toList.all isNumberChar && (Binary64.parseLiteral? t).isSome

/-- One of the five operator symbols. -/
def isOperator (t : String) : Bool := (BinOp.ofSymbol? t).isSome

/-- The characters a path segment may start with. -/
def isSegmentStart (c : Char) : Bool := c.isAlpha || c.isDigit || c == '-'

/-- The characters no path segment contains. -/
def isSegmentForbidden (c : Char) : Bool := c == ' ' || c == '/' || c == '(' || c == ')'

/-- A path segment: a start character, then anything but the forbidden characters. -/
def isSegment : List Char → Bool
  | [] => false
  | c :: cs => isSegmentStart c && cs.all fun d => !isSegmentForbidden d

/-- The pieces of a character list between slashes; `n` slashes give `n + 1` pieces. -/
def splitSlash : List Char → List (List Char)
  | [] => [[]]
  | c :: cs =>
    if c = '/' then [] :: splitSlash cs
    else match splitSlash cs with
      | w :: ws => (c :: w) :: ws
      | [] => [[c]]

/-- Four segments joined by slashes. -/
def isAttribute (t : String) : Bool :=
  match splitSlash t.toList with
  | [a, b, c, d] => isSegment a && isSegment b && isSegment c && isSegment d
  | _ => false

/-- The class of a word body: brackets first, then operators, numbers and paths. -/
def classify (t : String) : Option TokenKind :=
  if t = "(" then some .lparen
  else if t = ")" then some .rparen
  else if isOperator t then some .operator
  else if isNumber t then some .number
  else if isAttribute t then some .attribute
  else none

example : isNumber "1." ∧ isNumber ".5" ∧ isNumber "1e400" ∧
    !isNumber "1e" ∧ !isNumber "." := by
  decide

example : isAttribute "sys/pwr/psu-01/current" ∧ isAttribute "a/bü/c/d" ∧
    !isAttribute "ü/b/c/d" ∧ !isAttribute "a//c/d" ∧ !isAttribute "a/b/c/d/" := by decide

end AttrExpr
