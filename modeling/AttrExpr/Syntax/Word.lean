import AttrExpr.Syntax.Operand
import AttrExpr.Syntax.Error
import AttrExpr.Text.Blank

/-!
# Words and their brackets

A bracket may stand alone or be attached to the operand next to it: one `(` is peeled off the
front of a word of more than one character, then one `)` off the back of what remains, if that
still has more than one character. The rest is the word's *body*, which is classified; a word
whose body has no class is malformed, and the error names the word as written.

So `(2` is `(` then `2`, `()` is `(` then the body `)`, and `((2` has the body `(2`, which is
malformed.

## Main definitions

* `AttrExpr.Word`, `Word.ofText` — a word with its brackets peeled
* `Word.kind`, `Word.bodyToken`, `Word.tokens` — the class and tokens of a word
-/

namespace AttrExpr

/-- A word of an expression: the text as written, its body, and which brackets were peeled. -/
structure Word where
  text : String
  body : String
  leadingParen : Bool
  trailingParen : Bool
  deriving Repr, DecidableEq

/-- The characters left after peeling one leading `(` and one trailing `)`. -/
def peelBrackets (cs : List Char) : Bool × List Char × Bool :=
  let lead := decide (cs.length > 1) && cs.head? == some '('
  let rest := if lead then cs.drop 1 else cs
  let trail := decide (rest.length > 1) && rest.getLast? == some ')'
  (lead, (if trail then rest.dropLast else rest), trail)

/-- A word with its brackets peeled. -/
def Word.ofText (text : String) : Word :=
  let (lead, body, trail) := peelBrackets text.toList
  { text, body := String.ofList body, leadingParen := lead, trailingParen := trail }

namespace Word

/-- The class of the body. -/
def kind (w : Word) : Option TokenKind := classify w.body

/-- The token of the body; a body without a class makes the word malformed. -/
def bodyToken (w : Word) : Except ParseError Token :=
  match w.kind with
  | some .number => .ok (.number w.body)
  | some .attribute => .ok (.attribute w.body)
  | some .operator =>
    match BinOp.ofSymbol? w.body with
    | some op => .ok (.operator op)
    | none => .error (.malformedToken w.text)
  | some .lparen => .ok .lparen
  | some .rparen => .ok .rparen
  | none => .error (.malformedToken w.text)

/-- The tokens of a word: a peeled `(`, the body, a peeled `)`. -/
def tokens (w : Word) : Except ParseError (List Token) :=
  match w.bodyToken with
  | .ok t => .ok ((if w.leadingParen then [.lparen] else []) ++ t ::
      (if w.trailingParen then [.rparen] else []))
  | .error e => .error e

end Word

/-- The words of an expression, brackets peeled. -/
def wordsOf (s : String) : List Word := (words s).map Word.ofText

example : (Word.ofText "()").body = ")" ∧ (Word.ofText "()").leadingParen := by decide
example : (Word.ofText "(2)").body = "2" := by decide

end AttrExpr
