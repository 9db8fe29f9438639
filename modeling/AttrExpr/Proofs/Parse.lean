import AttrExpr.Proofs.Build
import AttrExpr.Proofs.Validation

/-!
# Which expressions have a tree

The builder follows the scanner (`Lexed.parse_done`), and a stream the scanner takes whole passes
the check (`validate_of_run`). Together: an expression has a tree exactly when no word of it is
malformed and its tokens are well shaped, whether or not the check runs first, and the tree is
the same either way. The tree lists the tokens of the expression without its brackets, so its
leaves are the bodies of the operand words, in order.

On an expression the check passes, the builder fails only at a clash, and names the second token
of the first one.

## Main results

* `AttrExpr.parseExpression_ok_iff` — the expressions with a tree, checked or not
* `AttrExpr.parseExpression_inorder` — the tree lists the tokens, brackets left out
* `AttrExpr.parseExpression_of_validate` — what the builder does on a checked expression
-/

namespace AttrExpr

/-! ## The build of a whole expression -/

theorem Lexed.eq_mk_done {lx : Lexed} (h : lx.stop = .done) : lx = ⟨lx.tokens, .done⟩ := by
  cases lx
  simp_all

theorem parseExpression_eq_of_validate {s : String} (h : validate s = .ok ()) :
    parseExpression s = (lex s).parse := by
  simp [parseExpression, h]

/-- A built expression has no malformed word, the scanner reads it through, and its tree lists its
tokens without the brackets. -/
theorem Lexed.parse_lex_eq_ok {s : String} {e : Expr} (h : (lex s).parse = .ok e) :
    (∀ w ∈ wordsOf s, w.kind.isSome) ∧
      Scanner.start.run (lex s).tokens = some ⟨false, 0⟩ ∧
      e.inorder = (lex s).tokens.filter (!·.isBracket) := by
  have heof : Token.eof ∉ (lex s).tokens := eof_not_mem_lexWords (wordsOf s)
  have hstop : (lex s).stop = .done := Lexed.stop_of_parse heof h
  refine ⟨(lexWords_stop _).1 hstop, ?_⟩
  rw [Lexed.eq_mk_done hstop] at h
  have hne : (lex s).tokens ≠ [] := by
    intro hnil
    simp [hnil, Lexed.parse] at h
  rcases Lexed.parse_done hne heof with ⟨e', he', hreject, hin⟩ | ⟨t, he', -⟩
  · obtain rfl : e' = e := by simpa [h] using he'.symm
    exact ⟨(Scanner.firstReject_eq_none_iff _ _).1 hreject, hin⟩
  · simp [h] at he'

/-- An expression with no malformed word whose tokens the scanner reads through is built. -/
theorem Lexed.parse_lex_of_run {s : String} (hk : ∀ w ∈ wordsOf s, w.kind.isSome)
    (hrun : Scanner.start.run (lex s).tokens = some ⟨false, 0⟩) :
    ∃ e, (lex s).parse = .ok e := by
  have hstop : (lex s).stop = .done := (lexWords_stop _).2 hk
  have hne : (lex s).tokens ≠ [] := (WellShaped.of_run hrun).ne_nil
  rw [Lexed.eq_mk_done hstop]
  rcases Lexed.parse_done hne (eof_not_mem_lexWords (wordsOf s)) with
    ⟨e, he, -⟩ | ⟨t, -, ht⟩
  · exact ⟨e, he⟩
  · rw [(Scanner.firstReject_eq_none_iff _ _).2 hrun] at ht
    cases ht

theorem parseExpression_eq_ok_iff {s : String} {e : Expr} :
    parseExpression s = .ok e ↔ (lex s).parse = .ok e := by
  constructor
  · intro h
    cases hv : validate s with
    | error err => simp [parseExpression, hv] at h
    | ok u => rwa [← parseExpression_eq_of_validate hv]
  · intro h
    obtain ⟨hk, hrun, -⟩ := Lexed.parse_lex_eq_ok h
    rwa [parseExpression_eq_of_validate (validate_of_run hk hrun)]

theorem parseExpression_of_run {s : String} (hk : ∀ w ∈ wordsOf s, w.kind.isSome)
    (hrun : Scanner.start.run (lex s).tokens = some ⟨false, 0⟩) :
    ∃ e, parseExpression s = .ok e := by
  obtain ⟨e, he⟩ := Lexed.parse_lex_of_run hk hrun
  exact ⟨e, parseExpression_eq_ok_iff.2 he⟩

/-- The scanner reads a stream through exactly when it is well shaped, and then it has tokens. -/
theorem run_lex_iff {s : String} (hk : ∀ w ∈ wordsOf s, w.kind.isSome) :
    Scanner.start.run (lex s).tokens = some ⟨false, 0⟩ ↔
      ∃ ts, (lex s).tokenize = .ok ts ∧ WellShaped ts := by
  have hstop : (lex s).stop = .done := (lexWords_stop _).2 hk
  constructor
  · intro hrun
    exact ⟨_, Lexed.tokenize_eq_ok_iff.2 ⟨hstop, rfl⟩, WellShaped.of_run hrun⟩
  · rintro ⟨ts, hts, hw⟩
    obtain ⟨-, rfl⟩ := Lexed.tokenize_eq_ok_iff.1 hts
    exact hw.run

/-- **The expressions with a tree.** An expression has a tree exactly when every word has a class
and its tokens are well shaped: non-empty, opening on an operand or `(`, closing on an operand
or `)`, an operator or `)` after every operand or `)`, an operand or `(` after every operator or
`(`, and brackets balanced. This holds with the check and without it, and the tree is the same. -/
theorem parseExpression_ok_iff (s : String) :
    ((∃ e, parseExpression s = .ok e) ↔ (∀ w ∈ wordsOf s, w.kind.isSome) ∧
        ∃ ts, (lex s).tokenize = .ok ts ∧ WellShaped ts) ∧
      ((∃ e, (lex s).parse = .ok e) ↔ (∀ w ∈ wordsOf s, w.kind.isSome) ∧
        ∃ ts, (lex s).tokenize = .ok ts ∧ WellShaped ts) ∧
      ∀ e, parseExpression s = .ok e ↔ (lex s).parse = .ok e := by
  have hunchecked : (∃ e, (lex s).parse = .ok e) ↔ (∀ w ∈ wordsOf s, w.kind.isSome) ∧
      ∃ ts, (lex s).tokenize = .ok ts ∧ WellShaped ts := by
    constructor
    · rintro ⟨e, he⟩
      obtain ⟨hk, hrun, -⟩ := Lexed.parse_lex_eq_ok he
      exact ⟨hk, (run_lex_iff hk).1 hrun⟩
    · rintro ⟨hk, hw⟩
      exact Lexed.parse_lex_of_run hk ((run_lex_iff hk).2 hw)
  refine ⟨?_, hunchecked, fun e => parseExpression_eq_ok_iff⟩
  simp only [parseExpression_eq_ok_iff]
  exact hunchecked

/-! ## What the tree lists -/

/-- The leaves of a tree are the operand texts of its tokens. -/
theorem Expr.leaves_eq_filterMap (e : Expr) : e.leaves = e.inorder.filterMap Token.operandText := by
  induction e
  case binary op l r ihl ihr =>
    simp [Expr.leaves, Expr.inorder, ihl, ihr, List.filterMap_append, List.filterMap_cons,
      Token.operandText]
  all_goals rfl

theorem filterMap_operandText_filter (ts : List Token) :
    (ts.filter (!·.isBracket)).filterMap Token.operandText = ts.filterMap Token.operandText := by
  rw [List.filterMap_filter]
  congr 1
  funext t
  cases t <;> rfl

/-- **The tree lists the tokens.** A built expression's tree, read left, operator, right, is its
token stream without the brackets; so its leaves are the bodies of its operand words, in order. -/
theorem parseExpression_inorder {s : String} {e : Expr} (h : parseExpression s = .ok e) :
    ∃ ts, (lex s).tokenize = .ok ts ∧ e.inorder = ts.filter (!·.isBracket) ∧
      e.leaves = ((wordsOf s).filter fun w => w.kind.any TokenKind.isOperand).map Word.body := by
  obtain ⟨hk, -, hin⟩ := Lexed.parse_lex_eq_ok (parseExpression_eq_ok_iff.1 h)
  refine ⟨_, Lexed.tokenize_eq_ok_iff.2 ⟨(lexWords_stop _).2 hk, rfl⟩, hin, ?_⟩
  rw [Expr.leaves_eq_filterMap, hin, filterMap_operandText_filter]
  exact lexWords_operandTexts hk

theorem parseExpression_leaves_sum :
    ∃ e, parseExpression "1 + a/b/c/d" = .ok e ∧ e.leaves = ["1", "a/b/c/d"] := by
  obtain ⟨e, he⟩ := parseExpression_of_run (s := "1 + a/b/c/d") (by decide) (by decide)
  obtain ⟨ts, -, -, hleaves⟩ := parseExpression_inorder he
  exact ⟨e, he, by rw [hleaves]; decide⟩

/-! ## Checked expressions -/

/-- **On a checked expression the builder fails only at a clash.** Its words all have a class, and
it is built when no `(` follows the end of an operand and no `)` stands where an operand is
awaited; otherwise the error names the second token of the first such pair. -/
theorem parseExpression_of_validate {s : String} (h : validate s = .ok ()) :
    ∃ ts, (lex s).tokenize = .ok ts ∧
      (firstClash? ts = none → ∃ e, parseExpression s = .ok e) ∧
      ∀ t, firstClash? ts = some t → parseExpression s = .error (.parseFailure t.display) := by
  obtain ⟨htok, hne⟩ := tokenize_of_validate h
  have hclash := firstReject_eq_firstClash h
  have hstop : (lex s).stop = .done := (Lexed.tokenize_eq_ok_iff.1 htok).1
  have hparse := Lexed.parse_done hne (eof_not_mem_lexWords (wordsOf s))
  rw [← Lexed.eq_mk_done hstop, ← parseExpression_eq_of_validate h, hclash] at hparse
  refine ⟨_, htok, fun hnone => ?_, fun t ht => ?_⟩
  · rcases hparse with ⟨e, he, -⟩ | ⟨t, -, ht⟩
    · exact ⟨e, he⟩
    · simp [hnone] at ht
  · rcases hparse with ⟨e, -, hnone, -⟩ | ⟨t', he, ht'⟩
    · simp [hnone] at ht
    · obtain rfl : t = t' := by simpa [ht] using ht'
      exact he

theorem parseExpression_lparen_after_operand :
    parseExpression "2 ( 3 )" = .error (.parseFailure "(") := by
  have hv : validate "2 ( 3 )" = .ok () :=
    validate_eq_ok_iff.2 ⟨by decide, (checkBrackets_eq_ok_iff _).2 (by decide)⟩
  obtain ⟨ts, hts, -, hfail⟩ := parseExpression_of_validate hv
  obtain ⟨-, rfl⟩ := Lexed.tokenize_eq_ok_iff.1 hts
  exact hfail .lparen (by decide)

end AttrExpr
