import AttrExpr.Syntax.Lexer
import Mathlib.Tactic.SplitIfs

/-!
# The token stream of an expression

A word whose body has a class always has tokens: its peeled `(`, the token of its body and its
peeled `)`. The body's token has the body's class, and an operand's token carries the body as
written. So a stream stops early exactly at a word with no class, and when every word has one
the stream is the words' tokens one after the other. No stream ever holds `eof`.

## Main definitions

* `Token.kind?` — the class of a token, none for `eof`
* `Token.operandText` — the text of a number or a path
* `Word.tokenList` — the tokens of a word, empty for a malformed one

## Main results

* `AttrExpr.lexWords_stop` — a stream ends at the end of the input exactly when every word has a
  class
* `AttrExpr.lexWords_tokens` — and then it is the words' tokens in order
* `AttrExpr.eof_not_mem_lexWords` — no `eof` token
* `AttrExpr.lexWords_operandTexts` — the operand texts are the bodies of the operand words
-/

namespace AttrExpr

/-- The class of a token; `eof` has none. -/
def Token.kind? : Token → Option TokenKind
  | .number _ => some .number
  | .attribute _ => some .attribute
  | .operator _ => some .operator
  | .lparen => some .lparen
  | .rparen => some .rparen
  | .eof => none

/-- The text of an operand token. -/
def Token.operandText : Token → Option String
  | .number text => some text
  | .attribute path => some path
  | _ => none

theorem classify_eq_operator {t : String} (h : classify t = some .operator) :
    ∃ op, BinOp.ofSymbol? t = some op := by
  unfold classify at h
  split_ifs at h with h₁ h₂ h₃ <;> simp at h
  simpa [isOperator, Option.isSome_iff_exists] using h₃

namespace Word

/-- The tokens of a word, empty for a malformed one. -/
def tokenList (w : Word) : List Token :=
  match w.tokens with
  | .ok ts => ts
  | .error _ => []

/-- A body with a class has a token of that class, which carries the body when it is an
operand. -/
theorem bodyToken_of_kind {w : Word} {k : TokenKind} (h : w.kind = some k) :
    ∃ b, w.bodyToken = .ok b ∧ b.kind? = some k ∧
      b.operandText = if k.isOperand then some w.body else none := by
  unfold bodyToken
  rw [h]
  cases k
  case operator =>
    obtain ⟨op, hop⟩ := classify_eq_operator h
    exact ⟨.operator op, by simp [hop], rfl, rfl⟩
  all_goals exact ⟨_, rfl, rfl, rfl⟩

theorem tokens_of_kind {w : Word} {k : TokenKind} (h : w.kind = some k) :
    ∃ b, w.tokens = .ok ((if w.leadingParen then [.lparen] else []) ++
        b :: (if w.trailingParen then [.rparen] else [])) ∧ b.kind? = some k ∧
      b.operandText = if k.isOperand then some w.body else none := by
  obtain ⟨b, hb, hk, htext⟩ := bodyToken_of_kind h
  exact ⟨b, by simp [tokens, hb], hk, htext⟩

theorem tokens_of_kind_eq_none {w : Word} (h : w.kind = none) :
    w.tokens = .error (.malformedToken w.text) := by
  simp [tokens, bodyToken, h]

theorem tokenList_of_kind {w : Word} {k : TokenKind} (h : w.kind = some k) :
    ∃ b, w.tokenList = (if w.leadingParen then [.lparen] else []) ++
        b :: (if w.trailingParen then [.rparen] else []) ∧ b.kind? = some k ∧
      b.operandText = if k.isOperand then some w.body else none := by
  obtain ⟨b, hts, hk, htext⟩ := tokens_of_kind h
  exact ⟨b, by simp [tokenList, hts], hk, htext⟩

theorem tokens_eq_ok {w : Word} (h : w.kind.isSome) : w.tokens = .ok w.tokenList := by
  obtain ⟨k, hk⟩ := Option.isSome_iff_exists.1 h
  obtain ⟨b, hts, -⟩ := tokens_of_kind hk
  simp [tokenList, hts]

theorem eof_not_mem_tokenList (w : Word) : .eof ∉ w.tokenList := by
  cases hk : w.kind with
  | none => simp [tokenList, tokens_of_kind_eq_none hk]
  | some k =>
    obtain ⟨b, hts, hb, -⟩ := tokenList_of_kind hk
    have : Token.eof ≠ b := by
      rintro rfl
      cases hb
    rw [hts]
    split_ifs <;> simp [this]

end Word

/-- The stream ends at the end of the input exactly when every word has a class. -/
theorem lexWords_stop (ws : List Word) :
    (lexWords ws).stop = .done ↔ ∀ w ∈ ws, w.kind.isSome := by
  induction ws with
  | nil => simp [lexWords]
  | cons w ws ih =>
    cases hk : w.kind with
    | none => simp [lexWords, Word.tokens_of_kind_eq_none hk, hk]
    | some k =>
      obtain ⟨b, hts, -⟩ := Word.tokens_of_kind hk
      simp [lexWords, hts, ih, hk]

/-- When every word has a class, the stream is the words' tokens in order. -/
theorem lexWords_tokens {ws : List Word} (h : ∀ w ∈ ws, w.kind.isSome) :
    (lexWords ws).tokens = ws.flatMap Word.tokenList := by
  induction ws with
  | nil => rfl
  | cons w ws ih =>
    simp only [List.mem_cons, forall_eq_or_imp] at h
    simp [lexWords, Word.tokens_eq_ok h.1, ih h.2]

theorem eof_not_mem_lexWords (ws : List Word) : .eof ∉ (lexWords ws).tokens := by
  induction ws with
  | nil => simp [lexWords]
  | cons w ws ih =>
    cases hk : w.kind with
    | none => simp [lexWords, Word.tokens_of_kind_eq_none hk]
    | some k =>
      have hts := Word.tokens_eq_ok (w := w) (by simp [hk])
      simp only [lexWords, hts, List.mem_append, not_or]
      exact ⟨Word.eof_not_mem_tokenList w, ih⟩

/-- The operand texts of a stream are the bodies of its operand words, in order. -/
theorem lexWords_operandTexts {ws : List Word} (h : ∀ w ∈ ws, w.kind.isSome) :
    (lexWords ws).tokens.filterMap Token.operandText =
      (ws.filter fun w => w.kind.any TokenKind.isOperand).map Word.body := by
  rw [lexWords_tokens h]
  induction ws with
  | nil => rfl
  | cons w ws ih =>
    simp only [List.mem_cons, forall_eq_or_imp] at h
    obtain ⟨k, hk⟩ := Option.isSome_iff_exists.1 h.1
    obtain ⟨b, hts, -, htext⟩ := Word.tokenList_of_kind hk
    have hbrackets : Token.lparen.operandText = none ∧ Token.rparen.operandText = none :=
      ⟨rfl, rfl⟩
    rw [List.flatMap_cons, List.filterMap_append, ih h.2, hts, List.filter_cons, hk]
    cases hop : k.isOperand <;> split_ifs <;> simp_all

theorem Lexed.tokenize_eq_ok_iff {lx : Lexed} {ts : List Token} :
    lx.tokenize = .ok ts ↔ lx.stop = .done ∧ lx.tokens = ts := by
  obtain ⟨tokens, stop⟩ := lx
  cases stop <;> simp [Lexed.tokenize]

end AttrExpr
