import AttrExpr.Tree.Basic
import AttrExpr.Syntax.Lexer
import AttrExpr.Syntax.Check

/-!
# Building the tree

The tree is built from a token stream by precedence climbing over three tiers:

```
additive       ::= multiplicative (('+' | '-') multiplicative)*      left-associative
multiplicative ::= power (('*' | '/') power)*                        left-associative
power          ::= primary ('^' power)?                              right-associative
primary        ::= number | path | '(' additive ')'
```

The builder looks at one token, the *current* one: the head of the remaining tokens, or `eof`
once they are used up. Moving past the last token meets the stream's stop: at the end of the
input the current token becomes `eof`, at a malformed word the build fails with its error. A
token that no rule expects fails the build, naming the token.

Every function returns the tokens still to read, never more than it was given. A call on `ts`
at tier `k` (primary 1, power 2, the `*` loop 3, products 4, the `+` loop 5, sums 6) is measured
by `7 * ts.length + k`: a call on the same tokens goes down a tier, and a call after a consumed
token has fewer tokens, so every nested call is smaller.

## Main definitions

* `AttrExpr.Stop.advance` — what moving past the current token meets
* `AttrExpr.Build.additive` and the other tiers
* `AttrExpr.Lexed.parse` — a tree from a token stream, with no check first
* `AttrExpr.parseExpression` — `validate`, then build
-/

namespace AttrExpr

/-- Moving past the current token, with `rest` the tokens after it: nothing is met while tokens
remain or when the input is done, the error when the stream stopped at a malformed word. -/
def Stop.advance (stop : Stop) : List Token → Except ParseError Unit
  | [] =>
    match stop with
    | .done => .ok ()
    | .failed e => .error e
  | _ :: _ => .ok ()

/-- The current token of the remaining ones. -/
def currentToken : List Token → Token
  | [] => .eof
  | t :: _ => t

/-- An operator of the given tier at the front, and the tokens after it. -/
def operatorAt (tier : Nat) : List Token → Option (BinOp × List Token)
  | .operator op :: rest => if op.precedence = tier then some (op, rest) else none
  | _ => none

theorem operatorAt_length {tier : Nat} {ts rest : List Token} {op : BinOp}
    (h : operatorAt tier ts = some (op, rest)) : rest.length < ts.length := by
  unfold operatorAt at h
  split at h
  · split at h
    · cases h
      simp
    · cases h
  · cases h

/-- Tokens left, at most as many as `ts`. -/
abbrev Rest (ts : List Token) := { r : List Token // r.length ≤ ts.length }

/-- The current token must be `tok`; then move past it. -/
def Stop.expect (stop : Stop) (tok : Token) (ts : List Token) : Except ParseError (Rest ts) :=
  match ts with
  | [] =>
    if tok = .eof then .ok ⟨[], Nat.le_refl _⟩ else .error (.parseFailure Token.eof.display)
  | t :: rest =>
    if t = tok then
      match stop.advance rest with
      | .ok () => .ok ⟨rest, by simp⟩
      | .error e => .error e
    else .error (.parseFailure t.display)

namespace Build

mutual

/-- A number, a path, or a bracketed expression. -/
def primary (stop : Stop) (ts : List Token) : Except ParseError (Expr × Rest ts) :=
  match ts with
  | .number text :: rest =>
    match stop.advance rest with
    | .ok () => .ok (.number text, ⟨rest, by simp⟩)
    | .error e => .error e
  | .attribute path :: rest =>
    match stop.advance rest with
    | .ok () => .ok (.attribute path, ⟨rest, by simp⟩)
    | .error e => .error e
  | .lparen :: rest =>
    match stop.advance rest with
    | .error e => .error e
    | .ok () =>
      match additive stop rest with
      | .error e => .error e
      | .ok (inner, ⟨r, hr⟩) =>
        match stop.expect .rparen r with
        | .error e => .error e
        | .ok ⟨r', hr'⟩ => .ok (inner, ⟨r', by simp; omega⟩)
  | t :: _ => .error (.parseFailure t.display)
  | [] => .error (.parseFailure Token.eof.display)
termination_by 7 * ts.length + 1

/-- A primary, raised by `^` to a power: the exponent takes the rest of the chain, so `^`
groups to the right. -/
def power (stop : Stop) (ts : List Token) : Except ParseError (Expr × Rest ts) :=
  match primary stop ts with
  | .error e => .error e
  | .ok (base, ⟨r, hr⟩) =>
    match h : operatorAt 3 r with
    | none => .ok (base, ⟨r, hr⟩)
    | some (op, r1) =>
      have := operatorAt_length h
      match stop.advance r1 with
      | .error e => .error e
      | .ok () =>
        match power stop r1 with
        | .error e => .error e
        | .ok (exponent, ⟨r2, hr2⟩) => .ok (.binary op base exponent, ⟨r2, by omega⟩)
termination_by 7 * ts.length + 2

/-- Further `*` and `/` steps after `left`, grouping to the left. -/
def mulTail (stop : Stop) (left : Expr) (ts : List Token) : Except ParseError (Expr × Rest ts) :=
  match h : operatorAt 2 ts with
  | none => .ok (left, ⟨ts, Nat.le_refl _⟩)
  | some (op, r1) =>
    have := operatorAt_length h
    match stop.advance r1 with
    | .error e => .error e
    | .ok () =>
      match power stop r1 with
      | .error e => .error e
      | .ok (right, ⟨r2, hr2⟩) =>
        match mulTail stop (.binary op left right) r2 with
        | .error e => .error e
        | .ok (result, ⟨r3, hr3⟩) => .ok (result, ⟨r3, by omega⟩)
termination_by 7 * ts.length + 3

/-- Powers joined by `*` and `/`. -/
def multiplicative (stop : Stop) (ts : List Token) : Except ParseError (Expr × Rest ts) :=
  match power stop ts with
  | .error e => .error e
  | .ok (left, ⟨r, hr⟩) =>
    match mulTail stop left r with
    | .error e => .error e
    | .ok (result, ⟨r', hr'⟩) => .ok (result, ⟨r', by omega⟩)
termination_by 7 * ts.length + 4

/-- Further `+` and `-` steps after `left`, grouping to the left. -/
def addTail (stop : Stop) (left : Expr) (ts : List Token) : Except ParseError (Expr × Rest ts) :=
  match h : operatorAt 1 ts with
  | none => .ok (left, ⟨ts, Nat.le_refl _⟩)
  | some (op, r1) =>
    have := operatorAt_length h
    match stop.advance r1 with
    | .error e => .error e
    | .ok () =>
      match multiplicative stop r1 with
      | .error e => .error e
      | .ok (right, ⟨r2, hr2⟩) =>
        match addTail stop (.binary op left right) r2 with
        | .error e => .error e
        | .ok (result, ⟨r3, hr3⟩) => .ok (result, ⟨r3, by omega⟩)
termination_by 7 * ts.length + 5

/-- Products joined by `+` and `-`. -/
def additive (stop : Stop) (ts : List Token) : Except ParseError (Expr × Rest ts) :=
  match multiplicative stop ts with
  | .error e => .error e
  | .ok (left, ⟨r, hr⟩) =>
    match addTail stop left r with
    | .error e => .error e
    | .ok (result, ⟨r', hr'⟩) => .ok (result, ⟨r', by omega⟩)
termination_by 7 * ts.length + 6

end

end Build

/-- The tree of a token stream: an empty stream is an empty expression (or the error of its
first word), and the whole stream must be used. -/
def Lexed.parse (lx : Lexed) : Except ParseError Expr :=
  match lx.tokens, lx.stop with
  | [], .failed e => .error e
  | [], .done => .error .emptyExpression
  | ts, stop =>
    match Build.additive stop ts with
    | .error e => .error e
    | .ok (tree, ⟨r, _⟩) =>
      match stop.expect .eof r with
      | .ok _ => .ok tree
      | .error e => .error e

/-- Checks an expression, then builds its tree. -/
def parseExpression (s : String) : Except ParseError Expr :=
  match validate s with
  | .error e => .error e
  | .ok () => (lex s).parse

end AttrExpr
