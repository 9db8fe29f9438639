/-!
# Syntax errors

The ways an expression can fail to be read, and their messages. Words are quoted as written,
bracket positions count characters from `0`.

*Alternation errors* are the three that break the rule that operands and operators alternate;
when an expression also has unbalanced brackets, the bracket error is reported instead.
-/

namespace AttrExpr

/-- Why an expression could not be read. -/
inductive ParseError where
  /-- A word that is no number, path, operator or bracket. -/
  | malformedToken (word : String)
  /-- An operand where an operator was due. -/
  | unexpectedOperand (word : String)
  /-- An operator where an operand was due. -/
  | unexpectedOperator (word : String)
  /-- The last word is an operator. -/
  | trailingOperator (word : String)
  /-- An opening bracket that is never closed, by character offset. -/
  | unbalancedOpen (pos : Nat)
  /-- A closing bracket with nothing open, by character offset. -/
  | unbalancedClose (pos : Nat)
  /-- A token the tree builder cannot place, as displayed. -/
  | parseFailure (token : String)
  /-- No words at all. -/
  | emptyExpression
  deriving Repr, DecidableEq

namespace ParseError

/-- The message of an error. -/
def message : ParseError → String
  | .malformedToken w => "invalid input in '" ++ w ++ "'"
  | .unexpectedOperand w => "'" ++ w ++ "' was expected to be an operator, but is an operand"
  | .unexpectedOperator w => "'" ++ w ++ "' was expected to be an operand, but is an operator"
  | .trailingOperator w => "final token of expression is an operator: '" ++ w ++ "'"
  | .unbalancedOpen p => "opening bracket at position " ++ toString p ++
      " is opened but never closed"
  | .unbalancedClose p => "closing bracket at position " ++ toString p ++
      " is closed but never opened"
  | .parseFailure t => "unexpected '" ++ t ++ "' while building expression tree"
  | .emptyExpression => "expression is empty"

/-- The errors of the alternation rule. -/
def isAlternation : ParseError → Bool
  | .unexpectedOperand _ | .unexpectedOperator _ | .trailingOperator _ => true
  | _ => false

end ParseError

end AttrExpr
