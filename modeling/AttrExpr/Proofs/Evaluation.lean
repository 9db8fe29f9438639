import AttrExpr.Eval.Basic

/-!
# Evaluation order and the first failure

An evaluation goes through a tree in post-order: left subtree, right subtree, then the node. A
tree *evaluates* to a value (`Evaluates`) when each number leaf reads as a finite literal, each
path has a finite reading, and each operator succeeds on its subtrees' values. The evaluation then
gives that value, and it reads each path leaf once, from left to right.

Otherwise the evaluation stops at the first subtree, in post-order, that has no value. The
subtrees of that one come before it and have values, so it fails on its own (`FailsWith`): a
number leaf that is no finite literal, a path whose reading fails (with the reader's own error) or
is not finite, or an operator that fails on its operands' values. The evaluation fails with that
error, and the paths it read are those of the path leaves up to that subtree.

## Main definitions

* `AttrExpr.Evaluates` — the value of a tree, as a judgment
* `AttrExpr.FailsWith` — the error a subtree raises once its subtrees have values
* `Expr.subtrees` — the subtrees in post-order
* `Expr.attributeLeaves` — the paths of the path leaves from left to right, repeats kept

## Main results

* `AttrExpr.evaluate_eq_ok_iff` — the evaluation gives a value exactly when the tree has one
* `AttrExpr.Evaluates.isFinite` — that value is finite
* `AttrExpr.reads_of_evaluate_eq_ok` — a successful evaluation reads every path leaf in order
* `AttrExpr.evaluate_eq_error` — a failed one fails at the first subtree with no value
* `AttrExpr.evaluate_first_failure` — all of it together
-/

namespace AttrExpr

namespace Expr

/-- The subtrees in post-order: left subtree, right subtree, then the node. -/
def subtrees : Expr → List Expr
  | .number text => [.number text]
  | .attribute path => [.attribute path]
  | .binary op l r => l.subtrees ++ r.subtrees ++ [.binary op l r]

/-- The path of a path leaf. -/
def path? : Expr → Option String
  | .attribute path => some path
  | _ => none

/-- The paths of the path leaves from left to right, one for each occurrence. -/
def attributeLeaves : Expr → List String
  | .number _ => []
  | .attribute path => [path]
  | .binary _ l r => l.attributeLeaves ++ r.attributeLeaves

/-- Each leaf is a subtree of its own, so the path leaves among the subtrees are the path
leaves. -/
theorem filterMap_path?_subtrees (e : Expr) :
    e.subtrees.filterMap path? = e.attributeLeaves := by
  induction e with
  | number text => rfl
  | «attribute» path => rfl
  | binary op l r ihl ihr => simp [subtrees, path?, attributeLeaves, ihl, ihr]

end Expr

section Judgments

variable (read : Reader)

/-- A tree evaluates to a value: a number leaf to its literal when that is finite, a path leaf to
its reading when that is finite, a node to its operator applied to its subtrees' values. -/
inductive Evaluates : Expr → Float → Prop
  | number {text : String} {x : Float} :
      Binary64.readFloat? text = some x → Binary64.isFinite x = true →
        Evaluates (.number text) x
  | attribute {path : String} {x : Float} :
      read path = .ok x → Binary64.isFinite x = true → Evaluates (.attribute path) x
  | binary {op : BinOp} {l r : Expr} {a b v : Float} :
      Evaluates l a → Evaluates r b → op.apply a b = .ok v → Evaluates (.binary op l r) v

/-- The error a subtree raises on its own, its subtrees having values: a number leaf that is no
finite literal, a failed reading with the reader's error, a reading that is not finite, or the
operator's error on its operands' values. -/
inductive FailsWith : Expr → EvalError → Prop
  | number {text : String} :
      (∀ x, Binary64.readFloat? text = some x → Binary64.isFinite x = false) →
        FailsWith (.number text) (.invalidNumber text)
  | readFailed {path : String} {e : EvalError} :
      read path = .error e → FailsWith (.attribute path) e
  | nonFinite {path : String} {x : Float} :
      read path = .ok x → Binary64.isFinite x = false →
        FailsWith (.attribute path) (.nonFiniteAttribute path x)
  | binary {op : BinOp} {l r : Expr} {a b : Float} {e : EvalError} :
      Evaluates read l a → Evaluates read r b → op.apply a b = .error e →
        FailsWith (.binary op l r) e

end Judgments

variable {read : Reader}

/-! ## Leaves -/

theorem numberValue_eq_ok_iff (read : Reader) {text : String} {x : Float} :
    numberValue text = .ok x ↔ Evaluates read (.number text) x := by
  constructor
  · intro h
    unfold numberValue at h
    split at h
    · split at h
      · cases h
        exact .number ‹_› ‹_›
      · cases h
    · cases h
  · rintro ⟨hx, hfin⟩
    simp [numberValue, hx, hfin]

theorem numberValue_eq_error_iff (read : Reader) {text : String} {e : EvalError} :
    numberValue text = .error e ↔ FailsWith read (.number text) e := by
  constructor
  · intro h
    unfold numberValue at h
    split at h
    · rename_i x hx
      split at h
      · cases h
      · cases h
        exact .number fun y hy => by simp_all
    · rename_i hx
      cases h
      exact .number fun y hy => by simp_all
  · rintro ⟨hnot⟩
    unfold numberValue
    cases hx : Binary64.readFloat? text with
    | none => rfl
    | some x => simp [hnot x hx]

theorem attributeValue_eq_ok_iff {path : String} {x : Float} :
    attributeValue read path = .ok x ↔ Evaluates read (.attribute path) x := by
  constructor
  · intro h
    unfold attributeValue at h
    cases hx : read path with
    | error e => simp [hx] at h
    | ok y =>
      by_cases hfin : Binary64.isFinite y = true
      · simp only [hx, hfin, if_true, Except.ok.injEq] at h
        exact .attribute (h ▸ hx) (h ▸ hfin)
      · simp [hx, hfin] at h
  · intro h
    cases h with
    | «attribute» hx hfin => simp [attributeValue, hx, hfin]

theorem attributeValue_eq_error_iff {path : String} {e : EvalError} :
    attributeValue read path = .error e ↔ FailsWith read (.attribute path) e := by
  constructor
  · intro h
    unfold attributeValue at h
    cases hx : read path with
    | error e' =>
      simp only [hx, Except.error.injEq] at h
      exact .readFailed (h ▸ hx)
    | ok y =>
      by_cases hfin : Binary64.isFinite y = true
      · simp [hx, hfin] at h
      · simp only [hx, hfin, if_false, Except.error.injEq, Bool.false_eq_true] at h
        exact h ▸ .nonFinite hx (Bool.eq_false_iff.2 hfin)
  · intro h
    cases h with
    | readFailed hx => simp [attributeValue, hx]
    | nonFinite hx hfin => simp [attributeValue, hx, hfin]

/-! ## Values -/

/-- A node's evaluation, by its subtrees' results. -/
theorem evaluate_binary (op : BinOp) (l r : Expr) :
    (Expr.binary op l r).evaluate read =
      match (l.evaluate read).result, (r.evaluate read).result with
      | .error e, _ => ⟨(l.evaluate read).reads, .error e⟩
      | .ok _, .error e => ⟨(l.evaluate read).reads ++ (r.evaluate read).reads, .error e⟩
      | .ok a, .ok b => ⟨(l.evaluate read).reads ++ (r.evaluate read).reads, op.apply a b⟩ := by
  simp only [Expr.evaluate]
  split <;> split <;> simp_all

/-- **The evaluation gives a value exactly when the tree evaluates to it.** -/
theorem evaluate_eq_ok_iff (e : Expr) (v : Float) :
    (e.evaluate read).result = .ok v ↔ Evaluates read e v := by
  induction e generalizing v with
  | number text => exact numberValue_eq_ok_iff read
  | «attribute» path => exact attributeValue_eq_ok_iff
  | binary op l r ihl ihr =>
    rw [evaluate_binary]
    constructor
    · intro h
      cases hl : (l.evaluate read).result with
      | error e => simp [hl] at h
      | ok a =>
        cases hr : (r.evaluate read).result with
        | error e => simp [hl, hr] at h
        | ok b =>
          simp only [hl, hr] at h
          exact .binary ((ihl a).1 hl) ((ihr b).1 hr) h
    · intro h
      cases h with
      | binary hl hr happly => simp [(ihl _).2 hl, (ihr _).2 hr, happly]

theorem BinOp.isFinite_of_apply_eq_ok {op : BinOp} {a b v : Float} (h : op.apply a b = .ok v) :
    Binary64.isFinite v = true := by
  unfold BinOp.apply at h
  split at h
  · cases h
  · dsimp only at h
    split at h
    · cases h
      assumption
    · cases h

/-- An operator fails by a zero divisor or by a result that is not finite. -/
theorem BinOp.apply_eq_error {op : BinOp} {a b : Float} {e : EvalError}
    (h : op.apply a b = .error e) : e = .divisionByZero ∨ e = .nonFinite op a b := by
  unfold BinOp.apply at h
  split at h
  · cases h
    exact .inl rfl
  · dsimp only at h
    split at h
    · cases h
    · cases h
      exact .inr rfl

/-- **A value is finite.** -/
theorem Evaluates.isFinite {e : Expr} {v : Float} (h : Evaluates read e v) :
    Binary64.isFinite v = true := by
  cases h with
  | number _ hfin => exact hfin
  | «attribute» _ hfin => exact hfin
  | binary _ _ happly => exact BinOp.isFinite_of_apply_eq_ok happly

/-- Every subtree of a tree with a value has a value. -/
theorem Evaluates.subtrees {e : Expr} {v : Float} (h : Evaluates read e v) :
    ∀ u ∈ e.subtrees, ∃ w, Evaluates read u w := by
  induction h with
  | number hx hfin => simpa [Expr.subtrees] using ⟨_, Evaluates.number hx hfin⟩
  | «attribute» hx hfin => simpa [Expr.subtrees] using ⟨_, Evaluates.attribute hx hfin⟩
  | binary hl hr happly ihl ihr =>
    intro u hu
    simp only [Expr.subtrees, List.mem_append, List.mem_singleton] at hu
    rcases hu with (hu | hu) | rfl
    · exact ihl u hu
    · exact ihr u hu
    · exact ⟨_, .binary hl hr happly⟩

/-! ## Reads -/

/-- **A successful evaluation reads every path leaf once, from left to right.** -/
theorem reads_of_evaluate_eq_ok {e : Expr} {v : Float} (h : (e.evaluate read).result = .ok v) :
    (e.evaluate read).reads = e.attributeLeaves := by
  induction e generalizing v with
  | number text => rfl
  | «attribute» path => rfl
  | binary op l r ihl ihr =>
    rw [evaluate_binary] at h ⊢
    cases hl : (l.evaluate read).result with
    | error e => simp [hl] at h
    | ok a =>
      cases hr : (r.evaluate read).result with
      | error e => simp [hl, hr] at h
      | ok b => simp [ihl hl, ihr hr, Expr.attributeLeaves]

/-! ## The first failure -/

/-- A subtree that fails on its own makes its evaluation fail with its error. -/
theorem FailsWith.evaluate {e : Expr} {err : EvalError} (h : FailsWith read e err) :
    (e.evaluate read).result = .error err := by
  cases h with
  | number hnot => exact (numberValue_eq_error_iff read).2 (.number hnot)
  | readFailed hx => exact attributeValue_eq_error_iff.2 (.readFailed hx)
  | nonFinite hx hfin => exact attributeValue_eq_error_iff.2 (.nonFinite hx hfin)
  | binary hl hr happly =>
    rw [evaluate_binary, (evaluate_eq_ok_iff _ _).2 hl, (evaluate_eq_ok_iff _ _).2 hr]
    exact happly

/-- A subtree that fails on its own has no value. -/
theorem FailsWith.not_evaluates {e : Expr} {err : EvalError} (h : FailsWith read e err)
    (v : Float) : ¬Evaluates read e v := by
  rw [← evaluate_eq_ok_iff, h.evaluate]
  simp

/-- The first subtree in post-order that has no value, with the error it raises and the paths
read up to it. -/
def FirstFailure (read : Reader) (e : Expr) (err : EvalError) (reads : List String) : Prop :=
  ∃ pre t post, e.subtrees = pre ++ t :: post ∧ (∀ u ∈ pre, ∃ w, Evaluates read u w) ∧
    FailsWith read t err ∧ reads = (pre ++ [t]).filterMap Expr.path?

/-- A failure in the left subtree is the node's first failure. -/
theorem FirstFailure.left {op : BinOp} {l r : Expr} {err : EvalError} {reads : List String}
    (h : FirstFailure read l err reads) : FirstFailure read (.binary op l r) err reads := by
  obtain ⟨pre, t, post, hsplit, hpre, hfail, hreads⟩ := h
  exact ⟨pre, t, post ++ r.subtrees ++ [.binary op l r], by simp [Expr.subtrees, hsplit], hpre,
    hfail, hreads⟩

/-- After a left subtree with a value, a failure in the right subtree is the node's first
failure, and the left subtree's paths were all read before it. -/
theorem FirstFailure.right {op : BinOp} {l r : Expr} {a : Float} {err : EvalError}
    {reads : List String} (hl : Evaluates read l a) (h : FirstFailure read r err reads) :
    FirstFailure read (.binary op l r) err (l.attributeLeaves ++ reads) := by
  obtain ⟨pre, t, post, hsplit, hpre, hfail, hreads⟩ := h
  refine ⟨l.subtrees ++ pre, t, post ++ [.binary op l r], by simp [Expr.subtrees, hsplit], ?_,
    hfail, by simp [hreads, ← Expr.filterMap_path?_subtrees]⟩
  intro u hu
  rcases List.mem_append.1 hu with hu | hu
  · exact hl.subtrees u hu
  · exact hpre u hu

/-- When both subtrees have values, a failing operator is the node's first failure. -/
theorem FirstFailure.node {op : BinOp} {l r : Expr} {a b : Float} {err : EvalError}
    (hl : Evaluates read l a) (hr : Evaluates read r b) (happly : op.apply a b = .error err) :
    FirstFailure read (.binary op l r) err (l.attributeLeaves ++ r.attributeLeaves) := by
  refine ⟨l.subtrees ++ r.subtrees, .binary op l r, [], by simp [Expr.subtrees], ?_,
    .binary hl hr happly, by simp [Expr.path?, Expr.filterMap_path?_subtrees]⟩
  intro u hu
  rcases List.mem_append.1 hu with hu | hu
  · exact hl.subtrees u hu
  · exact hr.subtrees u hu

/-- **A failed evaluation fails at the first subtree in post-order with no value**, with that
subtree's error, having read the paths of the path leaves up to it. -/
theorem evaluate_eq_error {e : Expr} {err : EvalError} (h : (e.evaluate read).result = .error err) :
    FirstFailure read e err (e.evaluate read).reads := by
  induction e generalizing err with
  | number text =>
    exact ⟨[], _, [], rfl, by simp, (numberValue_eq_error_iff read).1 h, rfl⟩
  | «attribute» path =>
    exact ⟨[], _, [], rfl, by simp, attributeValue_eq_error_iff.1 h, rfl⟩
  | binary op l r ihl ihr =>
    rw [evaluate_binary] at h ⊢
    -- the evaluation stops in the left subtree, in the right one, or at the operator
    cases hl : (l.evaluate read).result with
    | error e =>
      simp only [hl] at h ⊢
      cases h
      exact (ihl hl).left
    | ok a =>
      have hla := (evaluate_eq_ok_iff l a).1 hl
      rw [reads_of_evaluate_eq_ok hl]
      cases hr : (r.evaluate read).result with
      | error e =>
        simp only [hl, hr] at h ⊢
        cases h
        exact (ihr hr).right hla
      | ok b =>
        simp only [hl, hr] at h ⊢
        rw [reads_of_evaluate_eq_ok hr]
        exact .node hla ((evaluate_eq_ok_iff r b).1 hr) h

/-- **Evaluation in post-order, up to the first failure.** The evaluation gives a value exactly
when the tree has one; that value is finite, and every path leaf was read once, from left to
right. Otherwise it fails with the error of the first subtree in post-order that has no value,
having read exactly the path leaves up to that subtree. -/
theorem evaluate_first_failure (read : Reader) (e : Expr) :
    (∀ v, (e.evaluate read).result = .ok v ↔ Evaluates read e v) ∧
    (∀ v, (e.evaluate read).result = .ok v →
      Binary64.isFinite v = true ∧ (e.evaluate read).reads = e.attributeLeaves) ∧
    (∀ err, (e.evaluate read).result = .error err →
      ∃ pre t post, e.subtrees = pre ++ t :: post ∧ (∀ u ∈ pre, ∃ w, Evaluates read u w) ∧
        FailsWith read t err ∧ (∀ w, ¬Evaluates read t w) ∧
        (e.evaluate read).reads = (pre ++ [t]).filterMap Expr.path?) := by
  refine ⟨evaluate_eq_ok_iff e, fun v h => ⟨((evaluate_eq_ok_iff e v).1 h).isFinite,
    reads_of_evaluate_eq_ok h⟩, fun err h => ?_⟩
  obtain ⟨pre, t, post, hsplit, hpre, hfail, hreads⟩ := evaluate_eq_error h
  exact ⟨pre, t, post, hsplit, hpre, hfail, hfail.not_evaluates, hreads⟩

end AttrExpr
