import AttrExpr.Eval.Arith
import AttrExpr.Tree.Parser

/-!
# Evaluating a tree

A tree is evaluated left subtree first, then right subtree, then its operator, and evaluation
stops at the first error. A number leaf is read as a binary64 literal and must be finite. An
attribute leaf is read through a *reader*, once per occurrence; a reader's error is passed on
unchanged, and a reading that is not finite is an error.

The evaluation records the paths it read, in order, the one whose reading failed included.

## Main definitions

* `AttrExpr.Reader` — readings by path
* `AttrExpr.Reader.ofList`, `Reader.failing` — readings from a table, some paths refused
* `AttrExpr.Evaluation`, `AttrExpr.Expr.evaluate` — the paths read and the value or error
* `AttrExpr.evaluateExpression` — read an expression, then evaluate it
-/

namespace AttrExpr

/-- Readings by path. -/
abbrev Reader := String → Except EvalError Float

/-- Readings from a table; a path not in it is unknown. -/
def Reader.ofList (table : List (String × Float)) : Reader := fun path =>
  match table.lookup path with
  | some v => .ok v
  | none => .error (.unknownAttribute path)

/-- A reader whose readings of the listed paths fail with the given reasons. -/
def Reader.failing (refused : List (String × String)) (read : Reader) : Reader := fun path =>
  match refused.lookup path with
  | some reason => .error (.readFailed path reason)
  | none => read path

/-- The paths read, in order, and the value or the first error. -/
structure Evaluation where
  reads : List String
  result : Except EvalError Float

/-- The value of a number leaf. -/
def numberValue (text : String) : Except EvalError Float :=
  match Binary64.readFloat? text with
  | some x => if Binary64.isFinite x then .ok x else .error (.invalidNumber text)
  | none => .error (.invalidNumber text)

/-- The value of an attribute leaf. -/
def attributeValue (read : Reader) (path : String) : Except EvalError Float :=
  match read path with
  | .ok x => if Binary64.isFinite x then .ok x else .error (.nonFiniteAttribute path x)
  | .error e => .error e

/-- Evaluates a tree: left subtree, right subtree, operator. -/
def Expr.evaluate (read : Reader) : Expr → Evaluation
  | .number text => ⟨[], numberValue text⟩
  | .attribute path => ⟨[path], attributeValue read path⟩
  | .binary op l r =>
    let left := l.evaluate read
    match left.result with
    | .error e => ⟨left.reads, .error e⟩
    | .ok a =>
      let right := r.evaluate read
      match right.result with
      | .error e => ⟨left.reads ++ right.reads, .error e⟩
      | .ok b => ⟨left.reads ++ right.reads, op.apply a b⟩

/-- Reads an expression, then evaluates it. -/
def evaluateExpression (s : String) (read : Reader) : Evaluation :=
  match parseExpression s with
  | .error e => ⟨[], .error (.parse e)⟩
  | .ok tree => tree.evaluate read

end AttrExpr
