import AttrExpr.Proofs.Operands
import AttrExpr.Proofs.Rounding
import AttrExpr.Proofs.Evaluation
import AttrExpr.Proofs.LexerMachine

/-!
# The leaves of a built tree

A tree is built from the tokens of its words, and a leaf is the token of an operand body: the
body as it stands once its brackets are peeled, which the classification found to be a number
or a path. So the leaves of a built tree are well written (`Expr.wellWritten`), and a well
written leaf holds no blank (the words are cut at blanks) and no bracket (no number or path
character is one).

A number reads as a decimal literal (the character filter keeps the named values out), and a
decimal literal rounds to a finite value or to an infinity. So a number leaf never fails to read
and never reads as a not-a-number. The only way an evaluation of a built tree fails on a number
is a literal out of range, such as `1e400`; any other `invalidNumber` error is one a reader gave
for a path and the evaluation passed on unchanged.

## Main results

* `AttrExpr.parseExpression_wellWritten` — a built tree has well written leaves
* `AttrExpr.Expr.leaf_chars` — a well written leaf holds no blank and no bracket
* `AttrExpr.readFloat?_of_isNumber` — a number reads as a finite value or an infinity
* `AttrExpr.evaluate_eq_invalidNumber` — where an evaluation can fail on a number
* `AttrExpr.parseExpression_leaf_texts` — all of it for a built tree
-/

namespace AttrExpr

/-- A tree whose tokens can all be written back has well written leaves. -/
theorem Expr.wellWritten_of_inorder {e : Expr} (h : ∀ t ∈ e.inorder, t.writable = true) :
    e.wellWritten = true := by
  induction e with
  | number text => exact h _ List.mem_cons_self
  | «attribute» path => exact h _ List.mem_cons_self
  | binary op l r ihl ihr =>
    simp only [Expr.inorder, List.mem_append, List.mem_cons] at h
    simp only [Expr.wellWritten, Bool.and_eq_true]
    exact ⟨ihl fun t ht => h t (.inl ht), ihr fun t ht => h t (.inr (.inr ht))⟩

/-- A built tree has well written leaves: they are operand tokens of its words. -/
theorem parseExpression_wellWritten {s : String} {e : Expr} (h : parseExpression s = .ok e) :
    e.wellWritten = true := by
  obtain ⟨hk, -, hin⟩ := Lexed.parse_lex_eq_ok (parseExpression_eq_ok_iff.1 h)
  apply Expr.wellWritten_of_inorder
  intro t ht
  rw [hin, List.mem_filter] at ht
  have htok : t ∈ (wordsOf s).flatMap Word.tokenList := by
    rw [← lexWords_tokens hk]
    exact ht.1
  exact writable_of_wordsOf hk t htok

/-- The subtrees of a tree with well written leaves have well written leaves. -/
theorem Expr.wellWritten_of_mem_subtrees {e u : Expr} (he : e.wellWritten = true)
    (hu : u ∈ e.subtrees) : u.wellWritten = true := by
  induction e with
  | binary op l r ihl ihr =>
    simp only [Expr.wellWritten, Bool.and_eq_true] at he
    simp only [Expr.subtrees, List.mem_append, List.mem_singleton] at hu
    rcases hu with (hu | hu) | rfl
    · exact ihl he.1 hu
    · exact ihr he.2 hu
    · simp [Expr.wellWritten, he.1, he.2]
  | _ =>
    rw [Expr.subtrees, List.mem_singleton] at hu
    exact hu ▸ he

theorem charBracket?_eq_none_iff {c : Char} :
    charBracket? c = none ↔ c ≠ '(' ∧ c ≠ ')' := by
  unfold charBracket?
  split_ifs <;> simp_all

/-- The leaf texts of a tree with well written leaves hold no blank and no bracket. -/
theorem Expr.leaf_chars {e : Expr} (he : e.wellWritten = true) :
    ∀ t ∈ e.leaves, ∀ c ∈ t.toList, isBlank c = false ∧ c ≠ '(' ∧ c ≠ ')' := by
  induction e with
  | number text =>
    simp only [Expr.leaves, List.mem_singleton, forall_eq]
    intro c hc
    have hnum : isNumber text = true := he
    have hchar : isNumberChar c = true := by
      simp only [isNumber, Bool.and_eq_true, List.all_eq_true] at hnum
      exact hnum.1.2 c hc
    exact ⟨isBlank_of_isNumberChar hchar,
      charBracket?_eq_none_iff.1 (charBracket?_of_isNumber hnum hc)⟩
  | «attribute» path =>
    simp only [Expr.leaves, List.mem_singleton, forall_eq]
    intro c hc
    simp only [Expr.wellWritten, Bool.and_eq_true, List.all_eq_true, Bool.not_eq_true'] at he
    exact ⟨he.2 c hc, charBracket?_eq_none_iff.1 (charBracket?_of_isAttribute he.1 hc)⟩
  | binary op l r ihl ihr =>
    simp only [Expr.wellWritten, Bool.and_eq_true] at he
    simp only [Expr.leaves, List.mem_append]
    rintro t (ht | ht)
    · exact ihl he.1 t ht
    · exact ihr he.2 t ht

/-- A number reads as a finite value or as an infinity, never as a not-a-number. -/
theorem readFloat?_of_isNumber {t : String} (h : isNumber t = true) :
    ∃ x, Binary64.readFloat? t = some x ∧
      (Binary64.isFinite x = true ∨ ∃ neg, x = Binary64.infinity neg) := by
  obtain ⟨neg, m, e, hlit⟩ := parseLiteral?_of_isNumber h
  refine ⟨_, by rw [Binary64.readFloat?, hlit]; rfl, ?_⟩
  rcases Binary64.Literal.isFinite_or_eq_infinity neg m e with hfin | hinf
  · exact .inl hfin
  · exact .inr ⟨neg, hinf⟩

/-- On a tree with well written leaves, an evaluation fails on a number only at an infinite
one; otherwise the error `invalidNumber` is a reader's own. -/
theorem evaluate_eq_invalidNumber {read : Reader} {e : Expr} (he : e.wellWritten = true)
    {t : String} (h : (e.evaluate read).result = .error (.invalidNumber t)) :
    (Expr.number t ∈ e.subtrees ∧
        ∃ neg, Binary64.readFloat? t = some (Binary64.infinity neg)) ∨
      ∃ p ∈ e.attributeLeaves, read p = .error (.invalidNumber t) := by
  obtain ⟨pre, u, post, hsplit, -, hfail, -⟩ := evaluate_eq_error h
  have hu : u ∈ e.subtrees := by simp [hsplit]
  cases hfail with
  | number hnot =>
    obtain ⟨x, hx, hfin | ⟨neg, rfl⟩⟩ :=
      readFloat?_of_isNumber (Expr.wellWritten_of_mem_subtrees he hu)
    · exact absurd hfin (by simp [hnot x hx])
    · exact .inl ⟨hu, neg, hx⟩
  | readFailed hread =>
    refine .inr ⟨_, ?_, hread⟩
    rw [← Expr.filterMap_path?_subtrees]
    exact List.mem_filterMap.2 ⟨_, hu, rfl⟩
  | binary _ _ happly =>
    rcases BinOp.apply_eq_error happly with h | h <;> cases h

/-- **The leaves of a built tree are plain operands.** Every number leaf is a number and every
path leaf a path, as the words gave them, and no leaf text holds a blank or a bracket. A number
leaf reads as a finite value or as an infinity, never as a not-a-number and never not at all; so
whatever the reader, an evaluation fails with `invalidNumber` only at a number leaf whose literal
is out of range, or when the reader itself gives that error for a path. -/
theorem parseExpression_leaf_texts {s : String} {e : Expr} (h : parseExpression s = .ok e) :
    (∀ t, Expr.number t ∈ e.subtrees → isNumber t = true) ∧
      (∀ t, Expr.attribute t ∈ e.subtrees → isAttribute t = true) ∧
      (∀ t ∈ e.leaves, ∀ c ∈ t.toList, isBlank c = false ∧ c ≠ '(' ∧ c ≠ ')') ∧
      (∀ t, Expr.number t ∈ e.subtrees → ∃ x, Binary64.readFloat? t = some x ∧
        (Binary64.isFinite x = true ∨ ∃ neg, x = Binary64.infinity neg)) ∧
      ∀ (read : Reader) t, (e.evaluate read).result = .error (.invalidNumber t) →
        (Expr.number t ∈ e.subtrees ∧
          ∃ neg, Binary64.readFloat? t = some (Binary64.infinity neg)) ∨
        ∃ p ∈ e.attributeLeaves, read p = .error (.invalidNumber t) := by
  have he := parseExpression_wellWritten h
  have hnum : ∀ t, Expr.number t ∈ e.subtrees → isNumber t = true := fun t ht =>
    Expr.wellWritten_of_mem_subtrees he ht
  refine ⟨hnum, fun t ht => ?_, Expr.leaf_chars he,
    fun t ht => readFloat?_of_isNumber (hnum t ht), fun read t => evaluate_eq_invalidNumber he⟩
  have hpath := Expr.wellWritten_of_mem_subtrees he ht
  simp only [Expr.wellWritten, Bool.and_eq_true] at hpath
  exact hpath.1

theorem parseExpression_overflow_leaf :
    ∃ e, parseExpression "( 1e400 ) * a/b/c/d" = .ok e ∧
      ∀ t ∈ e.leaves, ∀ c ∈ t.toList, isBlank c = false ∧ c ≠ '(' ∧ c ≠ ')' := by
  obtain ⟨e, he⟩ := parseExpression_of_run (s := "( 1e400 ) * a/b/c/d") (by decide) (by decide)
  exact ⟨e, he, (parseExpression_leaf_texts he).2.2.1⟩

end AttrExpr
