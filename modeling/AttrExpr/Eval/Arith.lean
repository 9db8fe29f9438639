import AttrExpr.Eval.Error
import AttrExpr.Decimal.Arith

/-!
# Applying an operator

Division by a zero of either sign is an error. `^` is the binary64 power function of the C
library. `+ - * /` are computed in 96-bit decimals (`AttrExpr.Decimal`) when both operands
convert to decimals that convert back to the same binary64 value (so `0.1 + 0.2` is `0.3`) and
the decimal operation succeeds; otherwise in binary64. A result that is infinite or not a
number is an error naming the operator and both operands.

## Main definitions

* `AttrExpr.exactDecimal?` — the decimal of a value, when it converts back to it
* `AttrExpr.BinOp.decimalStep?`, `AttrExpr.BinOp.floatStep`
* `AttrExpr.BinOp.apply` — one operation of an evaluation
-/

namespace AttrExpr

/-- The decimal of a binary64 value, kept only when it converts back to an equal value. -/
def exactDecimal? (x : Float) : Option Decimal :=
  match Decimal.ofFloat? x with
  | some d => if d.toFloat == x then some d else none
  | none => none

namespace BinOp

/-- The operation in decimals; `^` has none. -/
def decimalStep? (op : BinOp) (a b : Decimal) : Option Decimal :=
  match op with
  | .add => a.add? b
  | .subtract => a.sub? b
  | .multiply => a.mul? b
  | .divide => a.div? b
  | .power => none

/-- The operation in binary64. -/
def floatStep (op : BinOp) (l r : Float) : Float :=
  match op with
  | .add => l + r
  | .subtract => l - r
  | .multiply => l * r
  | .divide => l / r
  | .power => l.pow r

/-- The value of `l op r`, the decimal way where it applies. -/
def combine (op : BinOp) (l r : Float) : Float :=
  match op with
  | .power => l.pow r
  | _ =>
    match exactDecimal? l, exactDecimal? r with
    | some a, some b =>
      match op.decimalStep? a b with
      | some d => d.toFloat
      | none => op.floatStep l r
    | _, _ => op.floatStep l r

/-- One operation of an evaluation. -/
def apply (op : BinOp) (l r : Float) : Except EvalError Float :=
  if op = .divide ∧ r == 0 then .error .divisionByZero
  else
    let v := op.combine l r
    if Binary64.isFinite v then .ok v else .error (.nonFinite op l r)

end BinOp

end AttrExpr
