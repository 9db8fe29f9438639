import AttrExpr.Tree.Parser
import AttrExpr.Proofs.Shape

/-!
# The tree builder follows the scanner

Each tier of the tree builder, called where an operand is due, either takes a prefix of its
tokens that reads as one operand (`ReadsOperand`) and gives back a tree that lists exactly the
tokens of that prefix, brackets left out, in order; or it fails, and then its error names the
first token the scanner rejects. The two loops, called where an operator is due, do the same for
a run of operator-operand steps (`ReadsSteps`).

The six tiers are proved together, by well-founded recursion on the number of tokens: a tier
relies on the tiers below it on the same tokens and on every tier on fewer tokens. The two loops
and the two tiers built from a loop are one definition each (`loopStep`, `chainStep`), shared
by their `*` and `+` instances.

What comes out is a description of the whole builder by the scanner alone: a stream is built
exactly when the scanner reads it through, and otherwise the build fails on the token the scanner
rejects first (`Lexed.parse_done`).

## Main definitions

* `Expr.inorder` — the tokens of a tree: left tree, operator, right tree
* `AttrExpr.ReadsOperand`, `AttrExpr.ReadsSteps` — token runs that read as an operand, or as
  operator-operand steps, at any depth
* `Build.Operand`, `Build.Steps` — what a tier gives back

## Main results

* `Build.tiers` — every tier meets its description
* `Lexed.parse_done`, `Lexed.stop_of_parse` — the build of a whole stream
-/

namespace AttrExpr

/-- The tokens of a tree in order: a leaf as its own token, a node as its left tree, its
operator and its right tree. -/
def Expr.inorder : Expr → List Token
  | .number text => [.number text]
  | .attribute path => [.attribute path]
  | .binary op l r => l.inorder ++ .operator op :: r.inorder

/-- `(` and `)`. -/
def Token.isBracket : Token → Bool
  | .lparen | .rparen => true
  | _ => false

/-- Tokens that read as one operand: from any depth where an operand is due, they leave an
operator due at the same depth. -/
def ReadsOperand (u : List Token) : Prop := ∀ d, Scanner.run ⟨true, d⟩ u = some ⟨false, d⟩

/-- Tokens that read as operator-operand steps: from any depth where an operator is due, they
leave one due again at the same depth. -/
def ReadsSteps (u : List Token) : Prop := ∀ d, Scanner.run ⟨false, d⟩ u = some ⟨false, d⟩

/-- No operator of tier `k` or above stands first. -/
def HeadBelow (k : Nat) (r : List Token) : Prop :=
  ∀ op rest, r = .operator op :: rest → op.precedence < k

theorem BinOp.precedence_pos (op : BinOp) : 0 < op.precedence := by
  cases op <;> decide

theorem BinOp.precedence_le (op : BinOp) : op.precedence ≤ 3 := by
  cases op <;> decide

/-! ## Runs that read as operands -/

theorem ReadsOperand.ne_nil {u : List Token} (h : ReadsOperand u) : u ≠ [] := by
  rintro rfl
  simpa using h 0

theorem readsOperand_number (text : String) : ReadsOperand [.number text] := fun _ => rfl

theorem readsOperand_attribute (path : String) : ReadsOperand [.attribute path] := fun _ => rfl

theorem ReadsOperand.group {u : List Token} (h : ReadsOperand u) :
    ReadsOperand (.lparen :: u ++ [.rparen]) := by
  intro d
  simp [Scanner.run_cons, Scanner.step, Scanner.run_append, h (d + 1)]

theorem ReadsOperand.append {u v : List Token} (hu : ReadsOperand u) (hv : ReadsSteps v) :
    ReadsOperand (u ++ v) := by
  intro d
  simp [Scanner.run_append, hu d, hv d]

theorem ReadsOperand.length_lt {u : List Token} (h : ReadsOperand u) (r : List Token) :
    r.length < (u ++ r).length := by
  have : u.length ≠ 0 := by simpa using h.ne_nil
  simp only [List.length_append]
  omega

theorem ReadsSteps.nil : ReadsSteps [] := fun _ => rfl

theorem ReadsSteps.cons {op : BinOp} {u v : List Token} (hu : ReadsOperand u)
    (hv : ReadsSteps v) : ReadsSteps (.operator op :: u ++ v) := by
  intro d
  simp [Scanner.run_cons, Scanner.step, Scanner.run_append, hu d, hv d]

/-- The tokens a node is read from: its left operand, its operator, its right operand. -/
theorem ReadsOperand.binary {op : BinOp} {u v : List Token} (hu : ReadsOperand u)
    (hv : ReadsOperand v) : ReadsOperand (u ++ .operator op :: v) := by
  intro d
  simp [Scanner.run_append, Scanner.run_cons, Scanner.step, hu d, hv d]

/-! ## Moving past a token -/

@[simp] theorem Stop.advance_done (r : List Token) : Stop.done.advance r = .ok () := by
  cases r <;> rfl

theorem Stop.eq_done_of_advance_nil {stop : Stop} (h : stop.advance [] = .ok ()) :
    stop = .done := by
  cases stop with
  | done => rfl
  | failed e => simp [Stop.advance] at h

/-- Moving on fails only where a malformed word cut the stream short. -/
theorem Stop.ne_done_of_advance_eq_error {stop : Stop} {r : List Token} {e : ParseError}
    (h : stop.advance r = .error e) : stop ≠ .done := by
  rintro rfl
  simp at h

theorem Stop.expect_eq_ok {stop : Stop} {tok : Token} {r : List Token} {p : Rest r}
    (h : stop.expect tok r = .ok p) :
    (r = [] ∧ tok = .eof ∧ p.1 = []) ∨ (r = tok :: p.1 ∧ (p.1 = [] → stop = .done)) := by
  unfold Stop.expect at h
  split at h
  · split at h
    · cases h
      exact .inl ⟨rfl, by assumption, rfl⟩
    · cases h
  · split at h
    · split at h
      · rename_i hadv
        cases h
        subst_vars
        exact .inr ⟨rfl, fun hr' => Stop.eq_done_of_advance_nil (hr' ▸ hadv)⟩
      · cases h
    · cases h

theorem Stop.expect_done_eq_error {tok : Token} {r : List Token} {err : ParseError}
    (h : Stop.done.expect tok r = .error err) :
    currentToken r ≠ tok ∧ err = .parseFailure (currentToken r).display := by
  unfold Stop.expect at h
  split at h
  · split at h
    · cases h
    · cases h
      exact ⟨Ne.symm (by assumption), rfl⟩
  · split at h
    · simp at h
    · cases h
      exact ⟨by assumption, rfl⟩

theorem operatorAt_eq_some {k : Nat} {ts r : List Token} {op : BinOp}
    (h : operatorAt k ts = some (op, r)) : ts = .operator op :: r ∧ op.precedence = k := by
  unfold operatorAt at h
  split at h
  · split at h
    · cases h
      exact ⟨rfl, by assumption⟩
    · cases h
  · cases h

theorem HeadBelow.of_operatorAt {k : Nat} {ts : List Token} (h : operatorAt k ts = none)
    (hb : HeadBelow (k + 1) ts) : HeadBelow k ts := by
  rintro op rest rfl
  have hk : op.precedence ≠ k := by
    intro hk
    simp [operatorAt, hk] at h
  have := hb op rest rfl
  omega

theorem headBelow_four (r : List Token) : HeadBelow 4 r := by
  rintro op rest -
  have := op.precedence_le
  omega

/-- Where an operator is due and none stands first, the scanner rejects the current token; only
`)` needs no bracket to be open, and only the end of the input needs one. -/
theorem firstReject_of_headBelow {r : List Token} (hb : HeadBelow 1 r) {d : Nat}
    (hnil : r = [] → 0 < d) (hclose : currentToken r = .rparen → d = 0) :
    Scanner.firstReject ⟨false, d⟩ r = some (currentToken r) := by
  cases r with
  | nil =>
    have := hnil rfl
    simp [Scanner.firstReject, currentToken]
    omega
  | cons t rest =>
    apply Scanner.firstReject_cons_of_step_eq_none
    cases t with
    | operator op => exact absurd (hb op rest rfl) (by have := op.precedence_pos; omega)
    | rparen => simp [hclose rfl, Scanner.step]
    | _ => rfl

/-! ## What a tier gives back -/

namespace Build

/-- What a tier called where an operand is due gives back. On success it used a prefix `u` of
its tokens that reads as one operand, its tree lists `u` without the brackets, the rest does not
start with an operator of tier `k` or above, and the rest is empty only if the stream ended
there. On failure, when the stream ends with no malformed word, the error names the token the
scanner rejects first, whatever the depth. -/
def Operand (k : Nat) (stop : Stop) (ts : List Token) :
    Except ParseError (Expr × Rest ts) → Prop
  | .ok (e, ⟨r, _⟩) =>
    ∃ u, ts = u ++ r ∧ ReadsOperand u ∧ e.inorder = u.filter (!·.isBracket) ∧
      HeadBelow k r ∧ (r = [] → stop = .done)
  | .error err =>
    stop = .done → ∃ t, err = .parseFailure t.display ∧
      ∀ d, Scanner.firstReject ⟨true, d⟩ ts = some t

/-- What the loop over the operators of tier `k` gives back, called after the tree `acc` where an
operator is due: the same as `Operand`, for a prefix that reads as operator-operand steps and a
tree that lists `acc` and then those steps. -/
def Steps (k : Nat) (stop : Stop) (acc : Expr) (ts : List Token) :
    Except ParseError (Expr × Rest ts) → Prop
  | .ok (e, ⟨r, _⟩) =>
    ∃ u, ts = u ++ r ∧ ReadsSteps u ∧ e.inorder = acc.inorder ++ u.filter (!·.isBracket) ∧
      (HeadBelow (k + 1) ts → HeadBelow k r) ∧ (r = [] → ts = [] ∨ stop = .done)
  | .error err =>
    stop = .done → ∃ t, err = .parseFailure t.display ∧
      ∀ d, Scanner.firstReject ⟨false, d⟩ ts = some t

/-- A rest of `r`, as a rest of a stream at least as long as `r`. -/
def Rest.widen {r ts : List Token} (h : r.length ≤ ts.length) (x : Rest r) : Rest ts :=
  ⟨x.1, Nat.le_trans x.2 h⟩

@[simp]
theorem Rest.val_widen {r ts : List Token} (h : r.length ≤ ts.length) (x : Rest r) :
    (Rest.widen h x).1 = x.1 :=
  rfl

/-- The loops of tiers `2` and `1`: while an operator of tier `k` stands first, take it and an
operand of the tier above, and join it to the tree so far. -/
def loopStep (stop : Stop) (k : Nat)
    (inner : (ts : List Token) → Except ParseError (Expr × Rest ts))
    (loop : Expr → (ts : List Token) → Except ParseError (Expr × Rest ts)) (left : Expr)
    (ts : List Token) : Except ParseError (Expr × Rest ts) :=
  match h : operatorAt k ts with
  | none => .ok (left, ⟨ts, Nat.le.refl⟩)
  | some (op, r1) =>
    have := operatorAt_length h
    match stop.advance r1 with
    | .error e => .error e
    | .ok () =>
      match inner r1 with
      | .error e => .error e
      | .ok (right, ⟨r2, hr2⟩) =>
        match loop (.binary op left right) r2 with
        | .error e => .error e
        | .ok (result, ⟨r3, hr3⟩) =>
          .ok (result, Rest.widen (Nat.le_of_lt this) (Rest.widen hr2 ⟨r3, hr3⟩))

/-- The tiers `2` and `1`: an operand of the tier above, then the loop. -/
def chainStep (inner : (ts : List Token) → Except ParseError (Expr × Rest ts))
    (loop : Expr → (ts : List Token) → Except ParseError (Expr × Rest ts)) (ts : List Token) :
    Except ParseError (Expr × Rest ts) :=
  match inner ts with
  | .error e => .error e
  | .ok (left, ⟨r, hr⟩) =>
    match loop left r with
    | .error e => .error e
    | .ok (result, ⟨r', hr'⟩) => .ok (result, Rest.widen hr ⟨r', hr'⟩)

theorem mulTail_eq (stop : Stop) (left : Expr) (ts : List Token) :
    mulTail stop left ts = loopStep stop 2 (power stop) (mulTail stop) left ts := by
  rw [mulTail]
  rfl

theorem addTail_eq (stop : Stop) (left : Expr) (ts : List Token) :
    addTail stop left ts = loopStep stop 1 (multiplicative stop) (addTail stop) left ts := by
  rw [addTail]
  rfl

theorem multiplicative_eq (stop : Stop) (ts : List Token) :
    multiplicative stop ts = chainStep (power stop) (mulTail stop) ts := by
  rw [multiplicative]
  rfl

theorem additive_eq (stop : Stop) (ts : List Token) :
    additive stop ts = chainStep (multiplicative stop) (addTail stop) ts := by
  rw [additive]
  rfl

/-! ## Each tier -/

theorem primary_spec {stop : Stop} {ts : List Token}
    (ih : ∀ ts' : List Token, ts'.length < ts.length → Operand 1 stop ts' (additive stop ts')) :
    Operand 4 stop ts (primary stop ts) := by
  rw [primary.eq_def]
  split
  · rename_i text rest
    split
    · rename_i hadv
      exact ⟨[.number text], rfl, readsOperand_number text, rfl, headBelow_four rest,
        fun h => Stop.eq_done_of_advance_nil (h ▸ hadv)⟩
    · rename_i e hadv
      exact fun hd => absurd hd (Stop.ne_done_of_advance_eq_error hadv)
  · rename_i path rest
    split
    · rename_i hadv
      exact ⟨[.attribute path], rfl, readsOperand_attribute path, rfl, headBelow_four rest,
        fun h => Stop.eq_done_of_advance_nil (h ▸ hadv)⟩
    · rename_i e hadv
      exact fun hd => absurd hd (Stop.ne_done_of_advance_eq_error hadv)
  · rename_i rest
    split
    · rename_i e hadv
      exact fun hd => absurd hd (Stop.ne_done_of_advance_eq_error hadv)
    · have hrest := ih rest (by simp)
      split
      · rename_i e he
        rw [he] at hrest
        intro hd
        obtain ⟨t, rfl, ht⟩ := hrest hd
        exact ⟨t, rfl, fun d => by rw [Scanner.firstReject_cons_of_step rfl]; exact ht (d + 1)⟩
      · rename_i inner r hr he
        rw [he] at hrest
        obtain ⟨u, hrest_eq, hu, hin, hb, -⟩ := hrest
        have hrun : ∀ d, Scanner.run ⟨true, d⟩ (.lparen :: u) = some ⟨false, d + 1⟩ :=
          fun d => by
          simp [Scanner.run_cons, Scanner.step, hu (d + 1)]
        split
        · -- the bracket is not closed where the inner expression stops
          rename_i e hx
          rintro rfl
          obtain ⟨hne, rfl⟩ := Stop.expect_done_eq_error hx
          refine ⟨_, rfl, fun d => ?_⟩
          rw [hrest_eq, ← List.cons_append, Scanner.firstReject_append (hrun d)]
          exact firstReject_of_headBelow hb (fun _ => Nat.succ_pos d) (fun h => absurd h hne)
        · rename_i r' hr' hx
          rcases Stop.expect_eq_ok hx with ⟨-, h, -⟩ | ⟨hr_eq, hdone⟩
          · cases h
          · exact ⟨.lparen :: u ++ [.rparen], by simp [hrest_eq, hr_eq], hu.group,
              by simp [hin, Token.isBracket],
              headBelow_four r', hdone⟩
  · rename_i t rest hnum hattr hopen
    rintro -
    refine ⟨t, rfl, fun d => Scanner.firstReject_cons_of_step_eq_none ?_ rest⟩
    cases t <;> simp_all [Scanner.step]
  · rintro -
    exact ⟨.eof, rfl, fun d => by simp [Scanner.firstReject]⟩

theorem power_spec {stop : Stop} {ts : List Token} (hp : Operand 4 stop ts (primary stop ts))
    (ih : ∀ ts' : List Token, ts'.length < ts.length → Operand 3 stop ts' (power stop ts')) :
    Operand 3 stop ts (power stop ts) := by
  rw [power]
  split
  · rename_i e he
    rw [he] at hp
    exact hp
  · rename_i base r hr he
    rw [he] at hp
    obtain ⟨u, hts, hu, hin, -, hdone⟩ := hp
    split
    · rename_i hop
      exact ⟨u, hts, hu, hin, HeadBelow.of_operatorAt hop (headBelow_four r), hdone⟩
    · rename_i op r1 hop
      obtain ⟨rfl, -⟩ := operatorAt_eq_some hop
      have hexp := ih r1 (by rw [hts]; simp; omega)
      split
      · rename_i e hadv
        exact fun hd => absurd hd (Stop.ne_done_of_advance_eq_error hadv)
      · split
        · rename_i e hpow
          rw [hpow] at hexp
          intro hd
          obtain ⟨t, rfl, ht⟩ := hexp hd
          refine ⟨t, rfl, fun d => ?_⟩
          rw [hts, Scanner.firstReject_append (hu d), Scanner.firstReject_cons_of_step rfl]
          exact ht d
        · rename_i exponent r2 hr2 hpow
          rw [hpow] at hexp
          obtain ⟨u2, hr1, hu2, hin2, hb2, hdone2⟩ := hexp
          exact ⟨u ++ .operator op :: u2, by simp [hts, hr1], hu.binary hu2,
            by simp [Expr.inorder, hin, hin2, Token.isBracket], hb2, hdone2⟩

/-- The loop of tier `k` meets its description when the tier above and the loop itself do on
fewer tokens. -/
theorem loopStep_spec {stop : Stop} {k : Nat}
    {inner : (ts : List Token) → Except ParseError (Expr × Rest ts)}
    {loop : Expr → (ts : List Token) → Except ParseError (Expr × Rest ts)}
    {acc : Expr} {ts : List Token}
    (hinner : ∀ ts' : List Token, ts'.length < ts.length → Operand (k + 1) stop ts' (inner ts'))
    (hloop : ∀ acc' (ts' : List Token), ts'.length < ts.length →
      Steps k stop acc' ts' (loop acc' ts')) :
    Steps k stop acc ts (loopStep stop k inner loop acc ts) := by
  unfold loopStep
  split
  · rename_i hop
    exact ⟨[], rfl, .nil, by simp, HeadBelow.of_operatorAt hop, .inl⟩
  · rename_i op r1 hop
    obtain ⟨rfl, -⟩ := operatorAt_eq_some hop
    have hright := hinner r1 (by simp)
    split
    · rename_i e hadv
      exact fun hd => absurd hd (Stop.ne_done_of_advance_eq_error hadv)
    · split
      · rename_i e hin
        rw [hin] at hright
        intro hd
        obtain ⟨t, rfl, ht⟩ := hright hd
        exact ⟨t, rfl, fun d => by rw [Scanner.firstReject_cons_of_step rfl]; exact ht d⟩
      · rename_i right r2 hr2 hin
        rw [hin] at hright
        obtain ⟨u2, hr1, hu2, hin2, hb2, hdone2⟩ := hright
        have hrest := hloop (.binary op acc right) r2
          (by have := hu2.length_lt r2; rw [hr1, List.length_cons]; omega)
        split
        · rename_i e hl
          rw [hl] at hrest
          intro hd
          obtain ⟨t, rfl, ht⟩ := hrest hd
          refine ⟨t, rfl, fun d => ?_⟩
          rw [Scanner.firstReject_cons_of_step rfl, hr1, Scanner.firstReject_append (hu2 d)]
          exact ht d
        · rename_i result r3 hr3 hl
          rw [hl] at hrest
          obtain ⟨u3, hr2', hu3, hin3, hb3, hdone3⟩ := hrest
          refine ⟨.operator op :: u2 ++ u3, by simp [hr1, hr2'], .cons hu2 hu3,
            by simp [hin3, Expr.inorder, hin2, Token.isBracket], fun _ => hb3 hb2,
            fun h => .inr ?_⟩
          rcases hdone3 h with h' | h'
          · exact hdone2 h'
          · exact h'

/-- A tier built from the tier above and its loop meets its description when the tier above
does on the same tokens and the loop does on fewer. -/
theorem chainStep_spec {stop : Stop} {k : Nat}
    {inner : (ts : List Token) → Except ParseError (Expr × Rest ts)}
    {loop : Expr → (ts : List Token) → Except ParseError (Expr × Rest ts)} {ts : List Token}
    (hinner : Operand (k + 1) stop ts (inner ts))
    (hloop : ∀ acc (ts' : List Token), ts'.length < ts.length →
      Steps k stop acc ts' (loop acc ts')) :
    Operand k stop ts (chainStep inner loop ts) := by
  unfold chainStep
  split
  · rename_i e he
    rw [he] at hinner
    exact hinner
  · rename_i left r hr he
    rw [he] at hinner
    obtain ⟨u, hts, hu, hin, hb, hdone⟩ := hinner
    have hrest := hloop left r (hts ▸ hu.length_lt r)
    split
    · rename_i e hl
      rw [hl] at hrest
      intro hd
      obtain ⟨t, rfl, ht⟩ := hrest hd
      exact ⟨t, rfl, fun d => by rw [hts, Scanner.firstReject_append (hu d)]; exact ht d⟩
    · rename_i result r' hr' hl
      rw [hl] at hrest
      obtain ⟨u', hr_eq, hu', hin', hb', hdone'⟩ := hrest
      refine ⟨u ++ u', by simp [hts, hr_eq], hu.append hu', by simp [hin', hin], hb' hb,
        fun h => ?_⟩
      rcases hdone' h with h' | h'
      · exact hdone h'
      · exact h'

/-! ## All tiers -/

/-- The descriptions of the six tiers on one token list. -/
structure Tiers (stop : Stop) (ts : List Token) : Prop where
  primary : Operand 4 stop ts (primary stop ts)
  power : Operand 3 stop ts (power stop ts)
  mulTail : ∀ acc, Steps 2 stop acc ts (mulTail stop acc ts)
  multiplicative : Operand 2 stop ts (multiplicative stop ts)
  addTail : ∀ acc, Steps 1 stop acc ts (addTail stop acc ts)
  additive : Operand 1 stop ts (additive stop ts)

/-- **Every tier follows the scanner.** Within one token list the tiers are taken in call order,
each from the ones before it; the recursion is on the number of tokens. -/
theorem tiers (stop : Stop) (ts : List Token) : Tiers stop ts :=
  have ih : ∀ ts' : List Token, ts'.length < ts.length → Tiers stop ts' :=
    fun ts' _ => tiers stop ts'
  have hprimary := primary_spec fun ts' h => (ih ts' h).additive
  have hpower := power_spec hprimary fun ts' h => (ih ts' h).power
  have hmulTail : ∀ acc, Steps 2 stop acc ts (mulTail stop acc ts) := fun acc => by
    rw [mulTail_eq]
    exact loopStep_spec (fun ts' h => (ih ts' h).power) fun acc' ts' h => (ih ts' h).mulTail acc'
  have hmult : Operand 2 stop ts (multiplicative stop ts) := by
    rw [multiplicative_eq]
    exact chainStep_spec hpower fun acc ts' h => (ih ts' h).mulTail acc
  have haddTail : ∀ acc, Steps 1 stop acc ts (addTail stop acc ts) := fun acc => by
    rw [addTail_eq]
    exact loopStep_spec (fun ts' h => (ih ts' h).multiplicative)
      fun acc' ts' h => (ih ts' h).addTail acc'
  have hadd : Operand 1 stop ts (additive stop ts) := by
    rw [additive_eq]
    exact chainStep_spec hmult fun acc ts' h => (ih ts' h).addTail acc
  ⟨hprimary, hpower, hmulTail, hmult, haddTail, hadd⟩
termination_by ts.length

end Build

/-! ## A whole stream -/

/-- **The builder is the scanner.** A non-empty stream with no malformed word and no `eof` token
is built exactly when the scanner reads it through, and then the tree lists its tokens without
the brackets; otherwise the build fails on the first token the scanner rejects. -/
theorem Lexed.parse_done {ts : List Token} (hne : ts ≠ []) (heof : .eof ∉ ts) :
    (∃ e, Lexed.parse ⟨ts, .done⟩ = .ok e ∧ Scanner.start.firstReject ts = none ∧
        e.inorder = ts.filter (!·.isBracket)) ∨
      ∃ t, Lexed.parse ⟨ts, .done⟩ = .error (.parseFailure t.display) ∧
        Scanner.start.firstReject ts = some t := by
  obtain ⟨t₀, ts₀, rfl⟩ := List.exists_cons_of_ne_nil hne
  have h := (Build.tiers .done (t₀ :: ts₀)).additive
  simp only [Lexed.parse]
  split
  · rename_i e he
    rw [he] at h
    obtain ⟨t, rfl, ht⟩ := h rfl
    exact .inr ⟨t, rfl, ht 0⟩
  · rename_i tree r hr he
    rw [he] at h
    obtain ⟨u, hts, hu, hin, hb, -⟩ := h
    have hrest :
        Scanner.start.firstReject (t₀ :: ts₀) = Scanner.firstReject ⟨false, 0⟩ r := by
      rw [hts]
      exact Scanner.firstReject_append (hu 0) r
    split
    · rename_i r' hr' hx
      rcases Stop.expect_eq_ok hx with ⟨rfl, -, -⟩ | ⟨hr_eq, -⟩
      · refine .inl ⟨tree, rfl, by rw [hrest]; rfl, ?_⟩
        simpa [hts] using hin
      · exact absurd (by simp [hts, hr_eq]) heof
    · rename_i err hx
      obtain ⟨hne', rfl⟩ := Stop.expect_done_eq_error hx
      refine .inr ⟨currentToken r, rfl, ?_⟩
      rw [hrest]
      exact firstReject_of_headBelow hb (fun h => absurd (by simp [h, currentToken]) hne')
        fun _ => rfl

/-- A stream is built only when no word of it is malformed. -/
theorem Lexed.stop_of_parse {lx : Lexed} {e : Expr} (heof : .eof ∉ lx.tokens)
    (h : lx.parse = .ok e) : lx.stop = .done := by
  obtain ⟨ts, stop⟩ := lx
  cases ts with
  | nil => cases stop <;> simp [Lexed.parse] at h
  | cons t₀ ts₀ =>
    have hadd := (Build.tiers stop (t₀ :: ts₀)).additive
    simp only [Lexed.parse] at h
    split at h
    · cases h
    · rename_i tree r hr he
      rw [he] at hadd
      obtain ⟨u, hts, -, -, -, hdone⟩ := hadd
      split at h
      · rename_i r' hr' hx
        rcases Stop.expect_eq_ok hx with ⟨rfl, -, -⟩ | ⟨hr_eq, -⟩
        · exact hdone rfl
        · exact absurd (by simp [hts, hr_eq]) heof
      · cases h

end AttrExpr
