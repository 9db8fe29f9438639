import AttrExpr.Syntax.Token
import AttrExpr.Syntax.Error
import AttrExpr.Binary64.Text

/-!
# Evaluation errors

Why an expression has no value, and the messages. Values in messages are written in the plain
positional layout (`AttrExpr.Binary64.showFloat`), so an infinite reading shows as `inf` and
not-a-number as `NaN`. A syntax error keeps its own message.
-/

namespace AttrExpr

/-- Why an expression has no value. -/
inductive EvalError where
  /-- No reading exists for the path. -/
  | unknownAttribute (path : String)
  /-- The reading of the path failed. -/
  | readFailed (path reason : String)
  /-- A number leaf that is no finite binary64 literal. -/
  | invalidNumber (text : String)
  /-- A divisor equal to zero. -/
  | divisionByZero
  /-- A reading that is infinite or not a number. -/
  | nonFiniteAttribute (path : String) (value : Float)
  /-- An operation whose result is infinite or not a number. -/
  | nonFinite (op : BinOp) (left right : Float)
  /-- The expression could not be read. -/
  | parse (e : ParseError)

/-- The message of an evaluation error. -/
def EvalError.message : EvalError → String
  | .unknownAttribute p => "attribute '" ++ p ++ "' is not available"
  | .readFailed p reason => "could not read attribute '" ++ p ++ "': " ++ reason
  | .invalidNumber t => "'" ++ t ++ "' is not a valid number"
  | .divisionByZero => "division by zero"
  | .nonFiniteAttribute p v =>
    "attribute '" ++ p ++ "' has no finite value (" ++ Binary64.showFloat v ++ ")"
  | .nonFinite op l r =>
    Binary64.showFloat l ++ " " ++ op.text ++ " " ++ Binary64.showFloat r ++
      " does not produce a finite value"
  | .parse e => e.message

end AttrExpr
