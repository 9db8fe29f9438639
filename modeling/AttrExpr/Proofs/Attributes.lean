import AttrExpr.Proofs.Evaluation
import AttrExpr.Cli.Commands

/-!
# The paths of a tree

`Expr.attributes` walks a tree with a stack of subtrees still to visit: it pops the top, keeps a
path it has not kept yet, and pushes a node's right subtree and then its left one, so that the
left one is visited first. Its invariant is that the paths still to come are those of the stack's
trees, top first. So it yields the tree's path leaves from left to right with every repeat
dropped, which is `List.eraseDups` of `Expr.attributeLeaves`.

Hence a tree has no paths exactly when it has no path leaf, and a successful evaluation, which
reads every path leaf in order, reads the paths in this order once repeats are dropped. An
evaluation with no readings given is refused for a tree with paths and otherwise never asks for a
reading, so it never fails on an unknown path.

## Main results

* `Expr.collectPaths_eq` — the stack invariant
* `Expr.attributes_eq_eraseDups` — the paths are the path leaves with repeats dropped
* `Cli.eval_ne_unknownAttribute` — evaluating with no readings never asks for one
* `AttrExpr.attributes_firstOccurrences` — all of it together
-/

namespace AttrExpr

namespace Expr

/-- The path leaves of a stack of trees, top first. -/
theorem flatMap_attributeLeaves_binary (op : BinOp) (l r : Expr) (stack : List Expr) :
    (l :: r :: stack).flatMap attributeLeaves =
      (Expr.binary op l r :: stack).flatMap attributeLeaves := by
  simp [attributeLeaves]

/-- Keeping `p` after `seen` removes `p` from what is still new. -/
theorem removeAll_append_singleton (xs seen : List String) (p : String) :
    xs.removeAll (seen ++ [p]) = (xs.removeAll seen).filter fun x => !x == p := by
  simp [List.removeAll, List.filter_filter, Bool.and_comm, Bool.beq_eq_decide_eq]

/-- **The stack invariant.** From a stack and the paths kept so far, the walk adds the paths of
the stack's trees, top first, that are new, each at its first occurrence. -/
theorem collectPaths_eq (stack : List Expr) (seen : List String) :
    collectPaths stack seen =
      seen ++ ((stack.flatMap attributeLeaves).removeAll seen).eraseDups := by
  fun_induction collectPaths stack seen with
  | case1 seen => simp
  | case2 text stack seen ih => simpa [attributeLeaves] using ih
  | case3 path stack seen ih =>
    by_cases hp : path ∈ seen
    · simp only [hp, dite_true] at ih
      simp [ih, hp, attributeLeaves, List.cons_removeAll]
    · -- a new path is kept, and drops out of what is still new after it
      simp only [hp, dite_false] at ih
      rw [if_neg hp, ih, removeAll_append_singleton]
      simp [attributeLeaves, List.cons_removeAll, hp, List.eraseDups_cons]
  | case4 op l r stack seen ih =>
    rw [ih, flatMap_attributeLeaves_binary op]

/-- **The paths of a tree are its path leaves from left to right, repeats dropped.** -/
theorem attributes_eq_eraseDups (e : Expr) : e.attributes = e.attributeLeaves.eraseDups := by
  simp [attributes, collectPaths_eq]

example : (Expr.binary .multiply (.attribute "a/b/c/d")
    (.binary .add (.attribute "a/b/c/d") (.attribute "x/y/z/w"))).attributes =
      ["a/b/c/d", "x/y/z/w"] := by
  rw [attributes_eq_eraseDups]
  decide

theorem eraseDups_eq_nil_iff {xs : List String} : xs.eraseDups = [] ↔ xs = [] := by
  cases xs with
  | nil => simp
  | cons x xs => simp [List.eraseDups_cons]

theorem attributes_eq_nil_iff (e : Expr) : e.attributes = [] ↔ e.attributeLeaves = [] := by
  rw [attributes_eq_eraseDups, eraseDups_eq_nil_iff]

end Expr

/-- An unknown path is an error that only the reader gives, at a path leaf. -/
theorem FailsWith.unknownAttribute {read : Reader} {t : Expr} {p : String}
    (h : FailsWith read t (.unknownAttribute p)) :
    ∃ path, t = .attribute path ∧ read path = .error (.unknownAttribute p) := by
  cases h with
  | readFailed hx => exact ⟨_, rfl, hx⟩
  | binary _ _ happly =>
    have := BinOp.apply_eq_error happly
    simp at this

/-- A tree with no path leaf never fails on an unknown path. -/
theorem evaluate_ne_unknownAttribute {read : Reader} {e : Expr} (he : e.attributeLeaves = [])
    (p : String) : (e.evaluate read).result ≠ .error (.unknownAttribute p) := by
  intro h
  obtain ⟨pre, t, post, hsplit, -, hfail, -⟩ := evaluate_eq_error h
  obtain ⟨path, rfl, -⟩ := hfail.unknownAttribute
  -- the failing leaf is a path leaf of the tree
  have hmem : path ∈ e.subtrees.filterMap Expr.path? :=
    List.mem_filterMap.2 ⟨.attribute path, by simp [hsplit], rfl⟩
  rw [Expr.filterMap_path?_subtrees, he] at hmem
  simp at hmem

/-- **Evaluating with no readings never asks for one**: a tree with paths is refused first, and a
tree without never reads. -/
theorem Cli.eval_ne_unknownAttribute (s p : String) :
    Cli.eval s none ≠ .error (.eval (.unknownAttribute p)) := by
  unfold Cli.eval Cli.parsed
  cases hs : parseExpression s with
  | error err => simp [bind, Except.bind]
  | ok e =>
    by_cases he : e.attributes.isEmpty
    · have hleaves : e.attributeLeaves = [] :=
        (Expr.attributes_eq_nil_iff e).1 (List.isEmpty_iff.1 he)
      simp only [bind, Except.bind, he, if_true, List.map_nil]
      split
      · simp
      · rename_i err hres
        intro h
        cases h
        exact evaluate_ne_unknownAttribute hleaves p hres
    · simp [bind, Except.bind, he]

/-- **The paths of a tree in order of first appearance.** The walk with a stack gives the path
leaves from left to right with every repeat dropped, so it is empty exactly when there is no path
leaf. A successful evaluation reads the paths in this order once its repeats are dropped, and
evaluating with no readings never reaches the reader. -/
theorem attributes_firstOccurrences :
    (∀ e : Expr, e.attributes = e.attributeLeaves.eraseDups ∧
      (e.attributes = [] ↔ e.attributeLeaves = [])) ∧
    (∀ (e : Expr) (read : Reader) (v : Float), (e.evaluate read).result = .ok v →
      (e.evaluate read).reads.eraseDups = e.attributes) ∧
    ∀ s p, Cli.eval s none ≠ .error (.eval (.unknownAttribute p)) := by
  refine ⟨fun e => ⟨Expr.attributes_eq_eraseDups e, Expr.attributes_eq_nil_iff e⟩,
    fun e read v h => ?_, Cli.eval_ne_unknownAttribute⟩
  rw [reads_of_evaluate_eq_ok h, Expr.attributes_eq_eraseDups]

end AttrExpr
