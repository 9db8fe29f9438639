import AttrExpr.Syntax.Token

/-!
# Expression trees

A tree is a number or an attribute path, kept as written, or an operator applied to two trees.

It is shown as a nested list, `[2, '+', [3, '*', 4]]`: a leaf as written, a node as its left
tree, its operator in quotes and its right tree, in brackets.

## Main definitions

* `AttrExpr.Expr` — the trees
* `Expr.display` — the nested-list form
* `Expr.leaves` — the leaf texts from left to right
* `Expr.attributes` — the paths of the tree in order of first appearance, found with a stack
  of subtrees still to visit
-/

namespace AttrExpr

/-- An expression tree. -/
inductive Expr where
  | number (text : String)
  | attribute (path : String)
  | binary (op : BinOp) (left right : Expr)
  deriving Repr, DecidableEq

namespace Expr

/-- The nested-list form. -/
def display : Expr → String
  | .number text => text
  | .attribute path => path
  | .binary op l r => "[" ++ l.display ++ ", '" ++ op.text ++ "', " ++ r.display ++ "]"

/-- A leaf is a number or a path. -/
def isLeaf : Expr → Bool
  | .binary .. => false
  | _ => true

/-- The leaf texts from left to right. -/
def leaves : Expr → List String
  | .number text => [text]
  | .attribute path => [path]
  | .binary _ l r => l.leaves ++ r.leaves

/-- The number of nodes and leaves. -/
def size : Expr → Nat
  | .binary _ l r => l.size + r.size + 1
  | _ => 1

/-- The total size of a stack of trees. -/
def stackSize : List Expr → Nat
  | [] => 0
  | e :: rest => e.size + stackSize rest

/-- Visits a stack of subtrees, the top first and a node's left tree before its right one,
adding each path not yet in `seen` at the end. -/
def collectPaths : List Expr → List String → List String
  | [], seen => seen
  | .number _ :: stack, seen => collectPaths stack seen
  | .attribute path :: stack, seen =>
    collectPaths stack (if path ∈ seen then seen else seen ++ [path])
  | .binary _ l r :: stack, seen => collectPaths (l :: r :: stack) seen
termination_by stack => stackSize stack
decreasing_by
  all_goals simp only [stackSize, size]
  all_goals omega

/-- The paths of a tree in order of first appearance, each once. -/
def attributes (e : Expr) : List String := collectPaths [e] []

end Expr

end AttrExpr
