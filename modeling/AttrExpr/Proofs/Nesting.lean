import AttrExpr.Proofs.Build
import Mathlib.Logic.Relation

/-!
# The builder's calls nest over fewer and fewer tokens

The tree builder is six functions that call each other, from `Build.primary` up to
`Build.additive`, and each call is made on the tokens not yet read. `Build.Invokes stop c c'`
says that the call `c` makes the call `c'` itself: it has one constructor for each call in the
bodies of the builder, under the conditions the body meets before it makes the call.

Every call reads on from where its caller is, and a call that does not go down a tier comes after
at least one token more (`Invokes.tokens_suffix`):

* a primary makes a call only at `(`, after moving past it;
* each turn of the `*` and `+` loops starts by moving past an operator of its tier;
* a power calls itself only after its base and a `^`.

So the measure the builder terminates by, `7 * tokens + tier`, goes down at every call, and no
run of nested calls goes on for ever. A chain of nested calls is shorter than the measure of its
first call, and between a primary and a primary nested in it the tokens left go down: a chain
holds at most one primary more than its first call has tokens.

## Main definitions

* `Build.Call` — a call of one of the builder's functions, with its arguments
* `Build.Invokes` — the calls that a call makes itself
* `Build.Nesting` — what the calls of a build do

## Main results

* `Build.Invokes.tokens_suffix`, `Build.Invokes.weight_lt` — what one call does
* `Build.invokes_wellFounded` — no run of nested calls is infinite
* `Build.length_lt_of_transGen` — a nested call on the same tier or above has fewer tokens
* `Build.countP_isPrimary_le` — the nesting of primaries is bounded by the tokens
* `AttrExpr.parse_nesting_bounded` — all of it for the build of any text
-/

namespace AttrExpr

namespace Build

open Relation

/-- A call of one of the builder's functions, with its arguments. The stop is the same in every
call of one build and is left out. -/
inductive Call where
  | primary (ts : List Token)
  | power (ts : List Token)
  | mulTail (left : Expr) (ts : List Token)
  | multiplicative (ts : List Token)
  | addTail (left : Expr) (ts : List Token)
  | additive (ts : List Token)

namespace Call

/-- The tokens not yet read when the call is made. -/
def tokens : Call → List Token
  | primary ts | power ts | mulTail _ ts | multiplicative ts | addTail _ ts | additive ts => ts

/-- The tier of the function called, from the primaries up, as in the builder's measure. -/
def tier : Call → Nat
  | primary _ => 1
  | power _ => 2
  | mulTail _ _ => 3
  | multiplicative _ => 4
  | addTail _ _ => 5
  | additive _ => 6

/-- The measure the builder's functions terminate by. -/
def weight (c : Call) : Nat := 7 * c.tokens.length + c.tier

/-- Whether the call is one of a primary. -/
def isPrimary : Call → Bool
  | primary _ => true
  | _ => false

theorem weight_additive (ts : List Token) : (additive ts).weight = 7 * ts.length + 6 := rfl

theorem tier_pos (c : Call) : 0 < c.tier := by
  cases c <;> simp [tier]

theorem tier_le (c : Call) : c.tier ≤ 6 := by
  cases c <;> simp [tier]

end Call

/-- `Invokes stop c c'`: the call `c` makes the call `c'` itself. There is one constructor for
each call in the bodies of the builder, with what the body has met before it: the result of an
earlier call, an operator at the front, a move past a token that met no malformed word. -/
inductive Invokes (stop : Stop) : Call → Call → Prop
  /-- A primary at `(` moves past it and reads a sum. -/
  | primary_additive {rest : List Token} (hadv : stop.advance rest = .ok ()) :
      Invokes stop (.primary (.lparen :: rest)) (.additive rest)
  /-- A power reads its base first. -/
  | power_primary (ts : List Token) : Invokes stop (.power ts) (.primary ts)
  /-- With a `^` after the base, the power moves past it and reads its exponent as a power. -/
  | power_power {ts : List Token} {base : Expr} {r : Rest ts} {op : BinOp} {r1 : List Token}
      (hbase : primary stop ts = .ok (base, r)) (hop : operatorAt 3 r.1 = some (op, r1))
      (hadv : stop.advance r1 = .ok ()) : Invokes stop (.power ts) (.power r1)
  /-- A turn of the `*` loop moves past its operator and reads a power. -/
  | mulTail_power {left : Expr} {ts : List Token} {op : BinOp} {r1 : List Token}
      (hop : operatorAt 2 ts = some (op, r1)) (hadv : stop.advance r1 = .ok ()) :
      Invokes stop (.mulTail left ts) (.power r1)
  /-- After that power, the next turn of the `*` loop. -/
  | mulTail_mulTail {left : Expr} {ts : List Token} {op : BinOp} {r1 : List Token}
      {right : Expr} {r2 : Rest r1} (hop : operatorAt 2 ts = some (op, r1))
      (hadv : stop.advance r1 = .ok ()) (hright : power stop r1 = .ok (right, r2)) :
      Invokes stop (.mulTail left ts) (.mulTail (.binary op left right) r2.1)
  /-- A product reads a power first. -/
  | multiplicative_power (ts : List Token) : Invokes stop (.multiplicative ts) (.power ts)
  /-- Then the `*` loop, after that power. -/
  | multiplicative_mulTail {ts : List Token} {left : Expr} {r : Rest ts}
      (hleft : power stop ts = .ok (left, r)) :
      Invokes stop (.multiplicative ts) (.mulTail left r.1)
  /-- A turn of the `+` loop moves past its operator and reads a product. -/
  | addTail_multiplicative {left : Expr} {ts : List Token} {op : BinOp} {r1 : List Token}
      (hop : operatorAt 1 ts = some (op, r1)) (hadv : stop.advance r1 = .ok ()) :
      Invokes stop (.addTail left ts) (.multiplicative r1)
  /-- After that product, the next turn of the `+` loop. -/
  | addTail_addTail {left : Expr} {ts : List Token} {op : BinOp} {r1 : List Token}
      {right : Expr} {r2 : Rest r1} (hop : operatorAt 1 ts = some (op, r1))
      (hadv : stop.advance r1 = .ok ()) (hright : multiplicative stop r1 = .ok (right, r2)) :
      Invokes stop (.addTail left ts) (.addTail (.binary op left right) r2.1)
  /-- A sum reads a product first. -/
  | additive_multiplicative (ts : List Token) :
      Invokes stop (.additive ts) (.multiplicative ts)
  /-- Then the `+` loop, after that product. -/
  | additive_addTail {ts : List Token} {left : Expr} {r : Rest ts}
      (hleft : multiplicative stop ts = .ok (left, r)) :
      Invokes stop (.additive ts) (.addTail left r.1)

variable {stop : Stop}

/-- An operand tier that succeeds gives back the rest of its tokens, past at least one. -/
theorem Operand.rest {k : Nat} {ts : List Token} {x : Except ParseError (Expr × Rest ts)}
    {e : Expr} {r : Rest ts} (h : Operand k stop ts x) (hx : x = .ok (e, r)) :
    r.1 <:+ ts ∧ r.1.length < ts.length := by
  subst hx
  obtain ⟨r, hr⟩ := r
  obtain ⟨u, hts, hu, -⟩ := h
  exact ⟨⟨u, hts.symm⟩, by subst hts; exact hu.length_lt r⟩

/-- What is read after an operator at the front comes after at least one token. -/
theorem operatorAt_suffix {k : Nat} {ts r1 u : List Token} {op : BinOp}
    (hop : operatorAt k ts = some (op, r1)) (hu : u <:+ r1) :
    u <:+ ts ∧ u.length < ts.length := by
  obtain ⟨rfl, -⟩ := operatorAt_eq_some hop
  exact ⟨hu.trans (List.suffix_cons _ _), Nat.lt_succ_of_le hu.length_le⟩

/-! ## One call -/

/-- **A call reads on from where its caller is.** Its tokens are a suffix of the caller's, and it
goes down a tier or comes after at least one token more. -/
theorem Invokes.tokens_suffix {c c' : Call} (h : Invokes stop c c') :
    c'.tokens <:+ c.tokens ∧ (c'.tier < c.tier ∨ c'.tokens.length < c.tokens.length) := by
  cases h with
  | primary_additive => exact ⟨List.suffix_cons _ _, .inr (by simp [Call.tokens])⟩
  | power_primary | multiplicative_power | additive_multiplicative =>
    exact ⟨List.suffix_refl _, .inl (by simp [Call.tier])⟩
  | power_power hbase hop =>
    -- the exponent is read after the base and its `^`
    obtain ⟨hr, -⟩ := (tiers stop _).primary.rest hbase
    obtain ⟨h1, hlt⟩ := operatorAt_suffix hop (List.suffix_refl _)
    exact ⟨h1.trans hr, .inr (lt_of_lt_of_le hlt hr.length_le)⟩
  | mulTail_power hop | addTail_multiplicative hop =>
    obtain ⟨h1, hlt⟩ := operatorAt_suffix hop (List.suffix_refl _)
    exact ⟨h1, .inr hlt⟩
  | mulTail_mulTail hop _ hright =>
    obtain ⟨h1, hlt⟩ := operatorAt_suffix hop ((tiers stop _).power.rest hright).1
    exact ⟨h1, .inr hlt⟩
  | addTail_addTail hop _ hright =>
    obtain ⟨h1, hlt⟩ := operatorAt_suffix hop ((tiers stop _).multiplicative.rest hright).1
    exact ⟨h1, .inr hlt⟩
  | multiplicative_mulTail hleft =>
    exact ⟨((tiers stop _).power.rest hleft).1, .inl (by simp [Call.tier])⟩
  | additive_addTail hleft =>
    exact ⟨((tiers stop _).multiplicative.rest hleft).1, .inl (by simp [Call.tier])⟩

/-- **Every call lowers the measure** the builder terminates by. -/
theorem Invokes.weight_lt {c c' : Call} (h : Invokes stop c c') : c'.weight < c.weight := by
  obtain ⟨hsuf, hdown⟩ := h.tokens_suffix
  have := hsuf.length_le
  have := c.tier_pos
  have := c'.tier_le
  unfold Call.weight
  omega

/-- A primary makes a call only at `(`, and the call is a sum on the tokens after it. -/
theorem Invokes.primary_inv {ts : List Token} {c : Call} (h : Invokes stop (.primary ts) c) :
    ∃ rest, ts = .lparen :: rest ∧ c = .additive rest := by
  cases h
  exact ⟨_, rfl, rfl⟩

/-- Each turn of the `*` loop starts at an operator of its tier and reads on after it. -/
theorem Invokes.mulTail_inv {left : Expr} {ts : List Token} {c : Call}
    (h : Invokes stop (.mulTail left ts) c) :
    ∃ op rest, ts = .operator op :: rest ∧ op.precedence = 2 ∧ c.tokens <:+ rest := by
  cases h with
  | mulTail_power hop =>
    obtain ⟨rfl, hp⟩ := operatorAt_eq_some hop
    exact ⟨_, _, rfl, hp, List.suffix_refl _⟩
  | mulTail_mulTail hop _ hright =>
    obtain ⟨rfl, hp⟩ := operatorAt_eq_some hop
    exact ⟨_, _, rfl, hp, ((tiers stop _).power.rest hright).1⟩

/-- Each turn of the `+` loop starts at an operator of its tier and reads on after it. -/
theorem Invokes.addTail_inv {left : Expr} {ts : List Token} {c : Call}
    (h : Invokes stop (.addTail left ts) c) :
    ∃ op rest, ts = .operator op :: rest ∧ op.precedence = 1 ∧ c.tokens <:+ rest := by
  cases h with
  | addTail_multiplicative hop =>
    obtain ⟨rfl, hp⟩ := operatorAt_eq_some hop
    exact ⟨_, _, rfl, hp, List.suffix_refl _⟩
  | addTail_addTail hop _ hright =>
    obtain ⟨rfl, hp⟩ := operatorAt_eq_some hop
    exact ⟨_, _, rfl, hp, ((tiers stop _).multiplicative.rest hright).1⟩

/-- A power calls itself only on the tokens after its base and a `^`. -/
theorem Invokes.power_inv {ts ts' : List Token} (h : Invokes stop (.power ts) (.power ts')) :
    ∃ base r, primary stop ts = .ok (base, r) ∧ r.1 = .operator .power :: ts' := by
  cases h with
  | @power_power _ _ _ op _ hbase hop =>
    obtain ⟨hr, hp⟩ := operatorAt_eq_some hop
    obtain rfl : op = .power := by cases op <;> simp [BinOp.precedence] at hp ⊢
    exact ⟨_, _, hbase, hr⟩

/-! ## Runs of nested calls -/

/-- **No run of nested calls goes on for ever.** -/
theorem invokes_wellFounded (stop : Stop) : WellFounded (flip (Invokes stop)) :=
  Subrelation.wf (fun h => Invokes.weight_lt h) (measure Call.weight).wf

/-- Every call nested in `c` reads a suffix of `c`'s tokens. -/
theorem suffix_of_reflTransGen {c c' : Call} (h : ReflTransGen (Invokes stop) c c') :
    c'.tokens <:+ c.tokens := by
  induction h with
  | refl => exact List.suffix_refl _
  | tail _ h ih => exact h.tokens_suffix.1.trans ih

theorem weight_lt_of_transGen {c c' : Call} (h : TransGen (Invokes stop) c c') :
    c'.weight < c.weight := by
  induction h with
  | single h => exact h.weight_lt
  | tail _ h ih => exact h.weight_lt.trans ih

/-- A call nested in `c`, on `c`'s tier or above, comes after at least one token more. -/
theorem length_lt_of_transGen {c c' : Call} (h : TransGen (Invokes stop) c c')
    (ht : c.tier ≤ c'.tier) : c'.tokens.length < c.tokens.length := by
  have := weight_lt_of_transGen h
  unfold Call.weight at this
  omega

/-- A chain of nested calls, the next turn of a loop counted as a call, has fewer calls after its
first than the first call's measure. -/
theorem length_lt_weight_of_isChain {c : Call} {cs : List Call}
    (h : (c :: cs).IsChain (Invokes stop)) : cs.length < c.weight := by
  induction cs generalizing c with
  | nil =>
    have := c.tier_pos
    simp only [List.length_nil, Call.weight]
    omega
  | cons c' cs ih =>
    rw [List.isChain_cons_cons] at h
    have := ih h.2
    have := h.1.weight_lt
    simp only [List.length_cons]
    omega

/-- A call from a primary comes after its `(`: counted in tokens, a primary costs one. -/
theorem Invokes.length_add_le {c c' : Call} (h : Invokes stop c c') :
    c'.tokens.length + (if c.isPrimary then 1 else 0) ≤ c.tokens.length := by
  cases c with
  | primary ts =>
    obtain ⟨rest, rfl, rfl⟩ := h.primary_inv
    simp [Call.isPrimary, Call.tokens]
  | power ts | mulTail _ ts | multiplicative ts | addTail _ ts | additive ts =>
    simpa [Call.isPrimary] using h.tokens_suffix.1.length_le

/-- **The nesting of primaries is bounded by the tokens.** A chain of nested calls holds at most
one primary more than its first call has tokens. -/
theorem countP_isPrimary_le {c : Call} {cs : List Call} (h : (c :: cs).IsChain (Invokes stop)) :
    (c :: cs).countP Call.isPrimary ≤ c.tokens.length + 1 := by
  -- the chain is followed call by call: a primary adds one to the count and has read a token
  induction cs generalizing c with
  | nil =>
    rw [List.countP_singleton]
    split <;> omega
  | cons c' cs ih =>
    rw [List.isChain_cons_cons] at h
    have hrest := ih h.2
    have hstep := h.1.length_add_le
    rw [List.countP_cons]
    omega

/-! ## The build of a text -/

/-- What the calls of a build from the tokens `ts` do, the first call being the sum on `ts`. -/
structure Nesting (stop : Stop) (ts : List Token) : Prop where
  /-- No run of nested calls goes on for ever. -/
  wellFounded : WellFounded (flip (Invokes stop))
  /-- A primary makes a call only at `(`, on the tokens after it. -/
  primary_calls : ∀ u c, Invokes stop (.primary u) c →
    ∃ rest, u = .lparen :: rest ∧ c = .additive rest
  /-- A primary that succeeds has read at least one token. -/
  primary_reads : ∀ u e (r : Rest u), primary stop u = .ok (e, r) → r.1.length < u.length
  /-- Each turn of the `*` loop comes after a `*` or a `/`. -/
  mulTail_calls : ∀ left u c, Invokes stop (.mulTail left u) c →
    ∃ op rest, u = .operator op :: rest ∧ op.precedence = 2 ∧ c.tokens <:+ rest
  /-- Each turn of the `+` loop comes after a `+` or a `-`. -/
  addTail_calls : ∀ left u c, Invokes stop (.addTail left u) c →
    ∃ op rest, u = .operator op :: rest ∧ op.precedence = 1 ∧ c.tokens <:+ rest
  /-- A power calls itself only after its base and a `^`. -/
  power_calls : ∀ u u', Invokes stop (.power u) (.power u') →
    ∃ base r, primary stop u = .ok (base, r) ∧ r.1 = .operator .power :: u'
  /-- Every call of the build reads a suffix of the tokens. -/
  reads_on : ∀ c, ReflTransGen (Invokes stop) (.additive ts) c → c.tokens <:+ ts
  /-- Between a primary and a primary nested in it, the tokens left go down. -/
  primary_nested : ∀ u u', TransGen (Invokes stop) (.primary u) (.primary u') →
    u'.length < u.length
  /-- A chain of nested calls from the first call holds at most one primary more than there are
  tokens, and fewer calls after the first than the first call's measure. -/
  chain_bounded : ∀ cs, (Call.additive ts :: cs).IsChain (Invokes stop) →
    (Call.additive ts :: cs).countP Call.isPrimary ≤ ts.length + 1 ∧
      cs.length < 7 * ts.length + 6

end Build

/-- **The build of every text terminates, and its nesting is bounded by its tokens.** Whatever
the text, every call of its build reads on through the token stream, primaries and loop turns
each past a token of their own, so no run of nested calls is infinite and a chain of them holds
at most one primary more than the stream has tokens. -/
theorem parse_nesting_bounded (s : String) : Build.Nesting (lex s).stop (lex s).tokens where
  wellFounded := Build.invokes_wellFounded _
  primary_calls _ _ h := h.primary_inv
  primary_reads u _ _ h := ((Build.tiers _ u).primary.rest h).2
  mulTail_calls _ _ _ h := h.mulTail_inv
  addTail_calls _ _ _ h := h.addTail_inv
  power_calls _ _ h := h.power_inv
  reads_on _ h := Build.suffix_of_reflTransGen h
  primary_nested _ _ h := Build.length_lt_of_transGen h le_rfl
  chain_bounded _ h :=
    ⟨Build.countP_isPrimary_le h,
      lt_of_lt_of_eq (Build.length_lt_weight_of_isChain h) (Build.Call.weight_additive _)⟩

end AttrExpr
