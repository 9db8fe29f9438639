import AttrExpr.Syntax.Word

/-!
# Token streams

An expression is read word by word into tokens. The stream stops at the end of the input, or at
the first malformed word: the tokens of the words before it are kept, and the error is what a
reader meets when it moves past the last of them. After the end, the stream only yields `eof`.

## Main definitions

* `AttrExpr.Stop`, `AttrExpr.Lexed` — tokens and how the stream stops
* `AttrExpr.lex` — the token stream of an expression
* `Lexed.steps` — the successive answers of a reader that asks for one token at a time, up to
  and including the first `eof` or error
* `Lexed.tokenize` — all tokens, or the first error
* `AttrExpr.Lexer`, `Lexer.nextToken`, `Lexer.tokenize` — the lexer as a machine that reads one
  word at a time and keeps the rest of a word's tokens waiting in a queue
-/

namespace AttrExpr

/-- How a token stream stops: at the end of the input, or at a malformed word. -/
inductive Stop where
  | done
  | failed (e : ParseError)
  deriving Repr, DecidableEq

/-- The tokens of the words before the stop, and the stop. -/
structure Lexed where
  tokens : List Token
  stop : Stop
  deriving Repr, DecidableEq

/-- The token stream of a list of words. -/
def lexWords : List Word → Lexed
  | [] => ⟨[], .done⟩
  | w :: ws =>
    match w.tokens with
    | .error e => ⟨[], .failed e⟩
    | .ok ts => let rest := lexWords ws; ⟨ts ++ rest.tokens, rest.stop⟩

/-- The token stream of an expression. -/
def lex (s : String) : Lexed := lexWords (wordsOf s)

namespace Lexed

/-- The answer after the last token: `eof`, or the error of the malformed word. -/
def last (lx : Lexed) : Except ParseError Token :=
  match lx.stop with
  | .done => .ok .eof
  | .failed e => .error e

/-- One token at a time, up to the first `eof` or error. -/
def steps (lx : Lexed) : List (Except ParseError Token) :=
  lx.tokens.map .ok ++ [lx.last]

/-- All tokens, or the error of the first malformed word. -/
def tokenize (lx : Lexed) : Except ParseError (List Token) :=
  match lx.stop with
  | .done => .ok lx.tokens
  | .failed e => .error e

end Lexed

/-! ## The lexer as a machine -/

/-- The lexer between two calls: the words not yet read, and the tokens of the last word read that
are still to be given, first in front. -/
structure Lexer where
  words : List String
  pending : List Token
  deriving Repr, DecidableEq

namespace Lexer

/-- The lexer at the start of an expression. -/
def new (s : String) : Lexer := ⟨AttrExpr.words s, []⟩

/-- Reading the word `w`, with `ws` the words after it: a peeled `(` is given at once with the
body and a peeled `)` left waiting, else the body is given with a peeled `)` left waiting. A
malformed word is an error. -/
def readWord (w : Word) (ws : List String) : Except ParseError Token × Lexer :=
  match w.bodyToken with
  | .error e => (.error e, ⟨ws, []⟩)
  | .ok body =>
    -- a word is read only when nothing waits: the pushes build the queue from its front
    if w.leadingParen then
      (.ok .lparen, ⟨ws, body :: if w.trailingParen then [.rparen] else []⟩)
    else if w.trailingParen then (.ok body, ⟨ws, [.rparen]⟩)
    else (.ok body, ⟨ws, []⟩)

/-- One call: a waiting token first, else the next word. The call after a malformed word reads
the word after it. Once the words run out every call gives `eof`. -/
def nextToken : Lexer → Except ParseError Token × Lexer
  | ⟨ws, t :: pending⟩ => (.ok t, ⟨ws, pending⟩)
  | ⟨[], []⟩ => (.ok .eof, ⟨[], []⟩)
  | ⟨text :: ws, []⟩ => readWord (Word.ofText text) ws

/-- A word counts three, a waiting token one. -/
def size (lx : Lexer) : Nat := 3 * lx.words.length + lx.pending.length

/-- Reading a word leaves the words after it and at most two waiting tokens. -/
theorem readWord_spec {w : Word} {ws : List String} :
    (readWord w ws).2.words = ws ∧ (readWord w ws).2.pending.length ≤ 2 := by
  unfold readWord
  split
  · simp
  · split
    · exact ⟨rfl, by split <;> simp⟩
    · split <;> simp

/-- A call that gives a token other than `eof` lowers the size. -/
theorem size_nextToken {lx lx' : Lexer} {t : Token} (h : lx.nextToken = (.ok t, lx'))
    (ht : t ≠ .eof) : lx'.size < lx.size := by
  obtain ⟨ws, pending⟩ := lx
  cases pending with
  | cons t pending =>
    cases h
    simp [size]
  | nil =>
    cases ws with
    | nil =>
      cases h
      exact absurd rfl ht
    | cons text ws =>
      have hread : readWord (Word.ofText text) ws = (.ok t, lx') := h
      obtain ⟨hws, hlen⟩ : lx'.words = ws ∧ lx'.pending.length ≤ 2 := by
        simpa [hread] using @readWord_spec (Word.ofText text) ws
      simp only [size, List.length_cons, List.length_nil, hws]
      omega

/-- Every token up to the first `eof`, or the first error. -/
def tokenize (lx : Lexer) : Except ParseError (List Token) :=
  match h : lx.nextToken with
  | (.error e, _) => .error e
  | (.ok t, lx') =>
    if ht : t = .eof then .ok []
    else
      have := size_nextToken h ht
      (tokenize lx').map (t :: ·)
termination_by lx.size

end Lexer

end AttrExpr
