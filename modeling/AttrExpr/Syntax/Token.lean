/-!
# Operators and tokens

Five binary operators in three precedence tiers: `^` (tier 3, right-associative), `*` and `/`
(tier 2), `+` and `-` (tier 1). A token is an operand (a number or an attribute path, kept as
written), an operator, a bracket, or the end of the input.

## Main definitions

* `AttrExpr.BinOp` — the operators, with `ofSymbol?`, `symbol`, `precedence`
* `AttrExpr.TokenKind` — the classes of a word body
* `AttrExpr.Token`, `Token.display` — tokens and how they are shown in messages
-/

namespace AttrExpr

/-- The binary operators. -/
inductive BinOp where
  | power
  | multiply
  | divide
  | add
  | subtract
  deriving Repr, DecidableEq

namespace BinOp

/-- The operator written as the given text, if any. -/
def ofSymbol? : String → Option BinOp
  | "^" => some .power
  | "*" => some .multiply
  | "/" => some .divide
  | "+" => some .add
  | "-" => some .subtract
  | _ => none

/-- The character an operator is written with. -/
def symbol : BinOp → Char
  | .power => '^'
  | .multiply => '*'
  | .divide => '/'
  | .add => '+'
  | .subtract => '-'

/-- The operator's text. -/
def text (op : BinOp) : String := String.singleton op.symbol

/-- Binding strength: `^` binds tightest, then `*` and `/`, then `+` and `-`. -/
def precedence : BinOp → Nat
  | .power => 3
  | .multiply | .divide => 2
  | .add | .subtract => 1

theorem ofSymbol?_text (op : BinOp) : ofSymbol? op.text = some op := by
  cases op <;> rfl

end BinOp

/-- The classes a word body can fall into. -/
inductive TokenKind where
  | number
  | attribute
  | operator
  | lparen
  | rparen
  deriving Repr, DecidableEq

/-- Numbers and attribute paths are the operands. -/
def TokenKind.isOperand : TokenKind → Bool
  | .number | .attribute => true
  | _ => false

/-- A token of an expression; `eof` stands after the last one. -/
inductive Token where
  | number (text : String)
  | attribute (path : String)
  | operator (op : BinOp)
  | lparen
  | rparen
  | eof
  deriving Repr, DecidableEq

/-- How a token is shown: operands as written, operators by their symbol, the end of the input
as `end of input`. -/
def Token.display : Token → String
  | .number text => text
  | .attribute path => path
  | .operator op => op.text
  | .lparen => "("
  | .rparen => ")"
  | .eof => "end of input"

end AttrExpr
