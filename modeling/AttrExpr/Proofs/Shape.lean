import AttrExpr.Syntax.Token
import Mathlib.Data.List.Chain

/-!
# How tokens may follow each other

The tokens of an expression are read by a small machine, the *scanner*. It knows whether an
operand is due (at the start, after an operator and after `(`) or an operator (after an operand
and after `)`), and how many brackets are open. A number, a path or `(` may stand where an
operand is due; an operator or `)` where an operator is due, `)` only while a bracket is open.
A stream is read through when the scanner ends with an operator due and no bracket open.

The same language is written out token by token in `WellShaped`: the stream is non-empty,
starts with what begins an operand and ends with what ends one, every token is allowed right
after the one before it, and the brackets balance. The scanner is the form the proofs use; the
written-out form is the one a scanner of the grammar checks by eye.

## Main definitions

* `Token.startsOperand`, `Token.endsOperand`, `Token.followsOperand`, `Token.awaitsOperand`
* `AttrExpr.Scanner`, `Scanner.step`, `Scanner.run` — the scanner
* `Scanner.firstReject` — the first token the scanner cannot take, `eof` for an early end
* `AttrExpr.WellShaped` — the token-by-token form

## Main results

* `Scanner.run_append`, `Scanner.firstReject_append` — reading a stream in two parts
* `AttrExpr.WellShaped.run`, `AttrExpr.WellShaped.of_run`, `AttrExpr.wellShaped_iff_run` — the two
  forms agree
-/

namespace AttrExpr

namespace Token

/-- A number, a path or `(`: what may stand where an operand is due. -/
def startsOperand : Token → Bool
  | .number _ | .attribute _ | .lparen => true
  | _ => false

/-- A number, a path or `)`: after these an operator is due. -/
def endsOperand : Token → Bool
  | .number _ | .attribute _ | .rparen => true
  | _ => false

/-- An operator or `)`: what may stand where an operator is due. -/
def followsOperand : Token → Bool
  | .operator _ | .rparen => true
  | _ => false

/-- An operator or `(`: after these an operand is due. -/
def awaitsOperand : Token → Bool
  | .operator _ | .lparen => true
  | _ => false

/-- The tokens allowed right after `a`. -/
def Follows (a b : Token) : Prop :=
  (a.endsOperand → b.followsOperand) ∧ (a.awaitsOperand → b.startsOperand)

end Token

/-- Where a scanner of a token stream stands: whether an operand is due, and how many brackets
are open. -/
structure Scanner where
  operandDue : Bool
  depth : Nat
  deriving DecidableEq, Repr

namespace Scanner

/-- The scanner before the first token. -/
def start : Scanner := ⟨true, 0⟩

/-- Reads one token, if it may stand here. -/
def step : Scanner → Token → Option Scanner
  | ⟨true, d⟩, .number _ => some ⟨false, d⟩
  | ⟨true, d⟩, .attribute _ => some ⟨false, d⟩
  | ⟨true, d⟩, .lparen => some ⟨true, d + 1⟩
  | ⟨false, d⟩, .operator _ => some ⟨true, d⟩
  | ⟨false, d + 1⟩, .rparen => some ⟨false, d⟩
  | _, _ => none

/-- Reads a stream token by token. -/
def run (s : Scanner) : List Token → Option Scanner
  | [] => some s
  | t :: ts => (s.step t).bind fun s' => s'.run ts

/-- The first token the scanner cannot take; `eof` when the stream ends with an operand due or a
bracket open. -/
def firstReject (s : Scanner) : List Token → Option Token
  | [] => if s = ⟨false, 0⟩ then none else some .eof
  | t :: ts =>
    match s.step t with
    | some s' => s'.firstReject ts
    | none => some t

@[simp] theorem run_nil (s : Scanner) : s.run [] = some s := rfl

theorem run_cons (s : Scanner) (t : Token) (ts : List Token) :
    s.run (t :: ts) = (s.step t).bind fun s' => s'.run ts := rfl

theorem run_append (s : Scanner) (u v : List Token) :
    s.run (u ++ v) = (s.run u).bind fun s' => s'.run v := by
  induction u generalizing s with
  | nil => rfl
  | cons t u ih =>
    cases h : s.step t with
    | none => simp [run_cons, h]
    | some s' => simpa [run_cons, h] using ih s'

/-- A scanner that reads a stream through reads each of its prefixes. -/
theorem run_take {s s' : Scanner} {ts : List Token} (h : s.run ts = some s') (k : Nat) :
    ∃ s'', s.run (ts.take k) = some s'' := by
  have hsplit := run_append s (ts.take k) (ts.drop k)
  rw [List.take_append_drop, h] at hsplit
  cases hk : s.run (ts.take k) with
  | none => simp [hk] at hsplit
  | some s'' => exact ⟨s'', rfl⟩

theorem firstReject_cons_of_step {s s' : Scanner} {t : Token} (h : s.step t = some s')
    (ts : List Token) : s.firstReject (t :: ts) = s'.firstReject ts := by
  simp [firstReject, h]

theorem firstReject_cons_of_step_eq_none {s : Scanner} {t : Token} (h : s.step t = none)
    (ts : List Token) : s.firstReject (t :: ts) = some t := by
  simp [firstReject, h]

/-- Once a part of the stream is read through, the rest is read from where it left off. -/
theorem firstReject_append {s s' : Scanner} {u : List Token} (h : s.run u = some s')
    (v : List Token) : s.firstReject (u ++ v) = s'.firstReject v := by
  induction u generalizing s with
  | nil =>
    simp only [run_nil, Option.some.injEq] at h
    subst h
    rfl
  | cons t u ih =>
    cases hs : s.step t with
    | none => simp [run_cons, hs] at h
    | some s₁ =>
      rw [List.cons_append, firstReject_cons_of_step hs]
      exact ih (by simpa [run_cons, hs] using h)

/-- What a step needs and what it leaves: the token may stand where the scanner is, and
afterwards an operand is due exactly when the token awaits one. -/
theorem step_eq_some {s s' : Scanner} {t : Token} (h : s.step t = some s') :
    (if s.operandDue then t.startsOperand else t.followsOperand) ∧
      s'.operandDue = t.awaitsOperand ∧ t.endsOperand = !t.awaitsOperand ∧
      s'.depth + [t].count .rparen = s.depth + [t].count .lparen := by
  obtain ⟨q, d⟩ := s
  cases q <;> cases t <;> cases d <;> simp_all [step, Token.startsOperand, Token.followsOperand,
    Token.awaitsOperand, Token.endsOperand] <;> (subst h; simp)

theorem step_isSome {s : Scanner} {t : Token}
    (ht : if s.operandDue then t.startsOperand else t.followsOperand)
    (hd : t = .rparen → 0 < s.depth) : ∃ s', s.step t = some s' := by
  obtain ⟨q, d⟩ := s
  cases q <;> cases t <;> cases d <;>
    simp_all [step, Token.startsOperand, Token.followsOperand]

/-- Brackets opened minus brackets closed is what a run adds to the depth. -/
theorem run_depth {s s' : Scanner} {ts : List Token} (h : s.run ts = some s') :
    s'.depth + ts.count .rparen = s.depth + ts.count .lparen := by
  induction ts generalizing s with
  | nil => simp_all
  | cons t ts ih =>
    cases hs : s.step t with
    | none => simp [run_cons, hs] at h
    | some s₁ =>
      have h₁ := ih (by simpa [run_cons, hs] using h)
      have h₂ := (step_eq_some hs).2.2.2
      rw [List.count_cons, List.count_cons]
      simp only [List.count_singleton] at h₂
      omega

/-- After a run through a non-empty stream, an operand is due exactly when its last token
awaits one, and that token ends an operand exactly when it does not. -/
theorem run_last {s s' : Scanner} {ts : List Token} (h : s.run ts = some s') :
    ∀ t ∈ ts.getLast?,
      s'.operandDue = t.awaitsOperand ∧ t.endsOperand = !t.awaitsOperand := by
  induction ts generalizing s with
  | nil => simp
  | cons t ts ih =>
    cases hs : s.step t with
    | none => simp [run_cons, hs] at h
    | some s₁ =>
      have h₁ : s₁.run ts = some s' := by simpa [run_cons, hs] using h
      cases ts with
      | nil =>
        simp only [run_nil, Option.some.injEq] at h₁
        subst h₁
        obtain ⟨-, hdue, hends, -⟩ := step_eq_some hs
        simpa using ⟨hdue, hends⟩
      | cons u us => simpa using ih h₁

theorem run_chain {s s' : Scanner} {ts : List Token} (h : s.run ts = some s') :
    ts.IsChain Token.Follows := by
  induction ts generalizing s with
  | nil => exact .nil
  | cons t ts ih =>
    cases hs : s.step t with
    | none => simp [run_cons, hs] at h
    | some s₁ =>
      have h₁ : s₁.run ts = some s' := by simpa [run_cons, hs] using h
      cases ts with
      | nil => exact .singleton t
      | cons u us =>
        refine .cons_cons ?_ (ih h₁)
        cases hu : s₁.step u with
        | none => simp [run_cons, hu] at h₁
        | some s₂ =>
          obtain ⟨-, hdue, hends, -⟩ := step_eq_some hs
          have hu' := (step_eq_some hu).1
          rw [hdue] at hu'
          constructor
          · intro ht
            simp_all
          · intro ht
            simpa [ht] using hu'

/-- A stream is read through exactly when the scanner rejects nothing in it. -/
theorem firstReject_eq_none_iff (s : Scanner) (ts : List Token) :
    s.firstReject ts = none ↔ s.run ts = some ⟨false, 0⟩ := by
  induction ts generalizing s with
  | nil => simp [firstReject]
  | cons t ts ih =>
    cases hs : s.step t with
    | none => simp [firstReject, run_cons, hs]
    | some s₁ => simp [firstReject, run_cons, hs, ih]

/-- A stream whose tokens follow each other and whose brackets never close more than are open
is read through, from a scanner its first token may stand at. -/
theorem run_of_follows {s : Scanner} {ts : List Token}
    (hhead : ∀ t ∈ ts.head?, if s.operandDue then t.startsOperand else t.followsOperand)
    (hchain : ts.IsChain Token.Follows)
    (hbal : ∀ k, (ts.take k).count .rparen ≤ s.depth + (ts.take k).count .lparen) :
    ∃ s', s.run ts = some s' := by
  induction ts generalizing s with
  | nil => exact ⟨s, rfl⟩
  | cons t ts ih =>
    have hd : t = .rparen → 0 < s.depth := by
      rintro rfl
      have := hbal 1
      simp at this
      omega
    obtain ⟨s₁, hs⟩ := step_isSome (hhead t rfl) hd
    obtain ⟨-, hdue, hends, hdepth⟩ := step_eq_some hs
    have hhead₁ :
        ∀ u ∈ ts.head?, if s₁.operandDue then u.startsOperand else u.followsOperand := by
      intro u hu
      obtain ⟨us, rfl⟩ := List.head?_eq_some_iff.1 hu
      have hf : Token.Follows t u := (List.isChain_cons_cons.1 hchain).1
      rw [hdue]
      cases ha : t.awaitsOperand
      · simpa using hf.1 (by simpa [ha] using hends)
      · simpa using hf.2 ha
    have hbal₁ : ∀ k, (ts.take k).count .rparen ≤ s₁.depth + (ts.take k).count .lparen := by
      intro k
      have := hbal (k + 1)
      simp only [List.take_succ_cons, List.count_cons] at this
      simp only [List.count_singleton] at hdepth
      omega
    obtain ⟨s', hs'⟩ := ih hhead₁ hchain.tail hbal₁
    exact ⟨s', by simp [run_cons, hs, hs']⟩

end Scanner

/-- A token stream written out token by token: non-empty, it starts with what begins an operand
and ends with what ends one, every token is allowed right after the one before it, and the
brackets balance: no prefix closes more than it opens, and the whole stream closes all it
opens. -/
structure WellShaped (ts : List Token) : Prop where
  ne_nil : ts ≠ []
  head : ∀ t ∈ ts.head?, t.startsOperand
  last : ∀ t ∈ ts.getLast?, t.endsOperand
  chain : ts.IsChain Token.Follows
  prefix_balanced : ∀ k, (ts.take k).count .rparen ≤ (ts.take k).count .lparen
  balanced : ts.count .rparen = ts.count .lparen

/-- The scanner reads a well-shaped stream through, and ends with an operator due and no bracket
open. -/
theorem WellShaped.run {ts : List Token} (hw : WellShaped ts) :
    Scanner.start.run ts = some ⟨false, 0⟩ := by
  obtain ⟨s', hs'⟩ := Scanner.run_of_follows (s := .start)
    (fun t ht => by simpa [Scanner.start] using hw.head t ht) hw.chain
    (fun k => by simpa [Scanner.start] using hw.prefix_balanced k)
  obtain ⟨t, ht⟩ : ∃ t, ts.getLast? = some t := Option.isSome_iff_exists.1 (by
    simpa [List.getLast?_isSome] using hw.ne_nil)
  have hdue := Scanner.run_last hs' t ht
  have hdepth := Scanner.run_depth hs'
  have hend := hw.last t ht
  rw [hs']
  obtain ⟨q, d⟩ := s'
  simp only [Scanner.start, hw.balanced] at hdepth hdue
  cases q <;> simp_all

/-- A stream the scanner reads through, ending with an operator due and no bracket open, is well
shaped. -/
theorem WellShaped.of_run {ts : List Token} (h : Scanner.start.run ts = some ⟨false, 0⟩) :
    WellShaped ts := by
  refine ⟨?_, ?_, ?_, Scanner.run_chain h, ?_, ?_⟩
  · rintro rfl
    simp [Scanner.start] at h
  · intro t ht
    obtain ⟨us, rfl⟩ := List.head?_eq_some_iff.1 ht
    cases hs : Scanner.start.step t with
    | none => simp [Scanner.run_cons, hs] at h
    | some s₁ => simpa [Scanner.start] using (Scanner.step_eq_some hs).1
  · intro t ht
    obtain ⟨hdue, hends⟩ := Scanner.run_last h t ht
    simp_all
  · -- the depth after each prefix counts the brackets the prefix leaves open
    intro k
    obtain ⟨s', hk⟩ := Scanner.run_take h k
    have := Scanner.run_depth hk
    simp only [Scanner.start] at this
    omega
  · have := Scanner.run_depth h
    simp only [Scanner.start] at this
    omega

/-- **The scanner reads exactly the well-shaped streams.** -/
theorem wellShaped_iff_run (ts : List Token) :
    WellShaped ts ↔ Scanner.start.run ts = some ⟨false, 0⟩ :=
  ⟨WellShaped.run, WellShaped.of_run⟩

end AttrExpr
