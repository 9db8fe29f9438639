import AttrExpr.Tree.Basic
import AttrExpr.Json.Number
import AttrExpr.Binary64.Read

/-!
# Trees as JSON

A node becomes the array `[left, "op", right]`, a path a string. A number leaf becomes a JSON
number when its text, blanks around it allowed, is a JSON number (read the quick way of
`AttrExpr.Json.readNumberText`); otherwise when it is a binary64 literal with a finite value;
otherwise it stays a string, as `1e400` does.

## Main definitions

* `AttrExpr.numberLeafJson` — the JSON form of a number leaf
* `AttrExpr.Expr.toJson`, `Expr.json`, `Expr.jsonPretty`
-/

namespace AttrExpr

/-- The JSON form of a number leaf. -/
def numberLeafJson (text : String) : Json.Value :=
  match Json.readNumberText text with
  | some n => .number n
  | none =>
    match Binary64.readFloat? text with
    | some x => if Binary64.isFinite x then .number (.float x) else .string text
    | none => .string text

namespace Expr

/-- The JSON form of a tree. -/
def toJson : Expr → Json.Value
  | .number text => numberLeafJson text
  | .attribute path => .string path
  | .binary op l r => .array [l.toJson, .string op.text, r.toJson]

/-- Compact JSON text of a tree. -/
def json (e : Expr) : String := e.toJson.compact

/-- Pretty JSON text of a tree. -/
def jsonPretty (e : Expr) : String := e.toJson.pretty

end Expr

end AttrExpr
