import AttrExpr.Proofs.Brackets

/-!
# What the check lets through

The alternation check reads words, the scanner reads tokens. The two agree on every word whose
tokens the scanner takes: what the check expects before a word is what the scanner expects, and the
check's tests on the word's body are ones the scanner makes too. So a stream the scanner takes
whole passes the check, and, its brackets being balanced, the whole of `validate`.

The converse fails, in two ways only. The check does not look at brackets against what is due,
and it reads a word such as `(+` or `()` by its body. What it lets through that the scanner does
not is a *clash*: a `(` right after a number, a path or `)`, or a `)` right after an operator or
`(`. Up to the first clash the check and the scanner agree word by word; at that clash the scanner
stops. So on a checked expression the scanner stops exactly at the second token of the leftmost
clashing pair, and reads through when there is none.

## Main definitions

* `TokenKind.dueAfter` — what the check expects after a word of a class
* `Token.clashes`, `AttrExpr.firstClash?` — the pairs the check lets through

## Main results

* `AttrExpr.validate_of_run` — a stream the scanner takes whole passes `validate`
* `AttrExpr.firstReject_eq_firstClash` — on a checked expression the scanner stops at the first
  clash
-/

namespace AttrExpr

/-- What the alternation check expects after a word of class `k`, with `q` due before it. -/
def TokenKind.dueAfter : TokenKind → Bool → Bool
  | .lparen, _ => true
  | .rparen, _ => false
  | .number, q | .attribute, q | .operator, q => !q

/-! ## The check, one word at a time -/

theorem checkWords_cons_of_kind {w : Word} {k : TokenKind} (hk : w.kind = some k)
    (ws : List Word) (q : Bool) (last : Option (Word × TokenKind)) :
    checkWords (w :: ws) q last =
      if k.isOperand && !q then .error (.unexpectedOperand w.text)
      else if k = .operator && q then .error (.unexpectedOperator w.text)
      else checkWords ws (k.dueAfter q) (some (w, k)) := by
  simp only [checkWords, hk]
  cases k <;> rfl

theorem checkWords_cons_of_checks {w : Word} {k : TokenKind} (hk : w.kind = some k) {q : Bool}
    (hop : k.isOperand → q = true) (hopr : k = .operator → q = false) (ws : List Word)
    (last : Option (Word × TokenKind)) :
    checkWords (w :: ws) q last = checkWords ws (k.dueAfter q) (some (w, k)) := by
  rw [checkWords_cons_of_kind hk]
  cases q <;> cases k <;> simp_all [TokenKind.isOperand]

/-- A word passes the check when its body has a class that may stand where it is. -/
theorem checkWords_cons_eq_ok {w : Word} {ws : List Word} {q : Bool}
    {last : Option (Word × TokenKind)} (h : checkWords (w :: ws) q last = .ok ()) :
    ∃ k, w.kind = some k ∧ (k.isOperand → q = true) ∧ (k = .operator → q = false) ∧
      checkWords ws (k.dueAfter q) (some (w, k)) = .ok () := by
  cases hk : w.kind with
  | none => simp [checkWords, hk] at h
  | some k =>
    rw [checkWords_cons_of_kind hk] at h
    refine ⟨k, rfl, fun hop => ?_, fun hop => ?_, ?_⟩
    · cases q <;> simp_all
    · cases q <;> simp_all
    · split_ifs at h
      simp_all

theorem checkWords_nil_eq_ok {q : Bool} {last : Option (Word × TokenKind)} :
    checkWords [] q last = .ok () ↔ ∃ w k, last = some (w, k) ∧ k ≠ .operator := by
  rcases last with _ | ⟨w, k⟩
  · simp [checkWords]
  · by_cases hk : k = .operator
    all_goals simp [checkWords, hk]

/-- Every word the check passes has a class. -/
theorem kind_isSome_of_checkWords {ws : List Word} {q : Bool} {last : Option (Word × TokenKind)}
    (h : checkWords ws q last = .ok ()) : ∀ w ∈ ws, w.kind.isSome := by
  induction ws generalizing q last with
  | nil => simp
  | cons w ws ih =>
    obtain ⟨k, hk, -, -, hrest⟩ := checkWords_cons_eq_ok h
    simpa [hk] using ih hrest

theorem validate_eq_ok_iff {s : String} :
    validate s = .ok () ↔ checkTokens s = .ok () ∧ checkBrackets s = .ok () := by
  unfold validate
  cases checkTokens s with
  | ok u => simp
  | error e =>
    simp only [reduceCtorEq, false_and, iff_false]
    split
    · split <;> simp
    · simp

/-! ## A stream the scanner takes passes the check -/

/-- The scanner, on the tokens of a peeled word, makes the check's tests on its body and ends
expecting what the check expects next. -/
theorem Scanner.run_peeled (l r : Bool) {b : Token} {k : TokenKind} (hb : b.kind? = some k)
    {q : Bool} {d : Nat} {s' : Scanner}
    (h : Scanner.run ⟨q, d⟩
      ((if l then [.lparen] else []) ++ b :: (if r then [.rparen] else [])) = some s') :
    (k.isOperand → q = true) ∧ (k = .operator → q = false) ∧
      s'.operandDue = k.dueAfter q := by
  -- a word holds at most two `)`, so three depths are all the scanner can tell apart
  cases l <;> cases r <;> cases b <;> cases hb <;> cases q <;> rcases d with _ | _ | d <;>
    simp [Scanner.run, Scanner.step] at h <;> subst h <;>
    simp [TokenKind.dueAfter, TokenKind.isOperand]

theorem Word.run_tokenList {w : Word} {k : TokenKind} (hk : w.kind = some k) {q : Bool}
    {d : Nat} {s' : Scanner} (h : Scanner.run ⟨q, d⟩ w.tokenList = some s') :
    (k.isOperand → q = true) ∧ (k = .operator → q = false) ∧
      s'.operandDue = k.dueAfter q := by
  obtain ⟨b, hts, hb, -⟩ := Word.tokenList_of_kind hk
  rw [hts] at h
  exact Scanner.run_peeled _ _ hb h

theorem checkWords_of_run {ws : List Word} (hk : ∀ w ∈ ws, w.kind.isSome) {q : Bool} {d : Nat}
    {last : Option (Word × TokenKind)}
    (h : Scanner.run ⟨q, d⟩ (ws.flatMap Word.tokenList) = some ⟨false, 0⟩)
    (hlast : ∀ x ∈ last, x.2 = .operator → q = true) (hne : last = none → ws ≠ []) :
    checkWords ws q last = .ok () := by
  induction ws generalizing q d last with
  | nil =>
    obtain rfl : q = false := by simp_all
    rcases last with _ | ⟨w, k⟩
    · simp at hne
    · exact checkWords_nil_eq_ok.2 ⟨w, k, rfl, fun hop => by simpa using hlast _ rfl hop⟩
  | cons w ws ih =>
    simp only [List.mem_cons, forall_eq_or_imp] at hk
    obtain ⟨k, hwk⟩ := Option.isSome_iff_exists.1 hk.1
    rw [List.flatMap_cons, Scanner.run_append] at h
    obtain ⟨⟨q₁, d₁⟩, hw, hrest⟩ := Option.bind_eq_some_iff.1 h
    obtain ⟨hopd, hopr, hq₁⟩ := Word.run_tokenList hwk hw
    rw [checkWords_cons_of_checks hwk hopd hopr]
    subst hq₁
    refine ih hk.2 hrest (fun x hx hop => ?_) (by simp)
    obtain rfl := Option.mem_some_iff.1 hx
    simp_all [TokenKind.dueAfter]

/-- **A stream the scanner takes whole passes the check.** Its brackets are balanced, so the text's
are too. -/
theorem validate_of_run {s : String} (hk : ∀ w ∈ wordsOf s, w.kind.isSome)
    (h : Scanner.start.run (lex s).tokens = some ⟨false, 0⟩) : validate s = .ok () := by
  have htokens : (lex s).tokens = (wordsOf s).flatMap Word.tokenList := lexWords_tokens hk
  refine validate_eq_ok_iff.2 ⟨?_, ?_⟩
  · refine checkWords_of_run hk (htokens ▸ h) (by simp) fun _ => ?_
    intro hnil
    have := WellShaped.of_run h
    simp [htokens, hnil] at this
    exact this.ne_nil rfl
  · rw [checkBrackets_eq_ok_iff, brackets_lex hk]
    simpa [Scanner.start, balancedFrom] using Scanner.balancedFrom_run h []

/-! ## Clashes

On a checked expression the scanner stops only at a clash. The check and the scanner keep the
same expectation from word to word as long as no clash has been met, and whether the next token
clashes depends only on that expectation: the token before it may be taken to be `(` when an
operand is due and `)` when an operator is. -/

/-- Whether `b` may not follow `a` although the check lets it: a `(` after the end of an operand,
or a `)` where an operand is awaited. -/
def Token.clashes (a : Token) : Token → Bool
  | .lparen => a.endsOperand
  | .rparen => a.awaitsOperand
  | _ => false

/-- The second token of the leftmost clashing pair. -/
def firstClash? : List Token → Option Token
  | a :: b :: ts => if a.clashes b then some b else firstClash? (b :: ts)
  | _ => none

theorem firstClash?_eq_none_iff (ts : List Token) :
    firstClash? ts = none ↔ ts.IsChain fun a b => a.clashes b = false := by
  fun_induction firstClash? ts with
  | case1 a b ts h => simp [h]
  | case2 a b ts h ih => simp [h, ih]
  | case3 ts h =>
    rcases ts with _ | ⟨a, _ | ⟨b, ts⟩⟩
    · simp
    · simp
    · exact absurd rfl (h a b ts)

/-- A token after which an operand is due exactly when `q`. -/
def Token.ofDue (q : Bool) : Token := if q then .lparen else .rparen

/-- Which tokens clash with what follows depends only on whether an operand is due after them. -/
theorem firstClash?_cons_congr {a c : Token} (ha : a.awaitsOperand = c.awaitsOperand)
    (he : a.endsOperand = c.endsOperand) (ts : List Token) :
    firstClash? (a :: ts) = firstClash? (c :: ts) := by
  rcases ts with _ | ⟨b, ts⟩
  · rfl
  · have hb : a.clashes b = c.clashes b := by
      cases b <;> simp [Token.clashes, ha, he]
    simp only [firstClash?, hb]

/-! ### The scanner up to the first clash -/

/-- From `s`, on the tokens `v`: the scanner stops at the first clash, which lies in `v`, or reads
`v` through to a state where `P` holds, and the first clash is then that of what follows. The
token before `v` is taken to be `(` or `)`, as an operand is due at `s` or not. -/
def Scanner.UpToClash (s : Scanner) (v : List Token) (P : Scanner → Prop) : Prop :=
  ∀ rest, (∃ t, firstClash? (Token.ofDue s.operandDue :: (v ++ rest)) = some t ∧
      s.firstReject (v ++ rest) = some t) ∨
    ∃ s', s.run v = some s' ∧ P s' ∧
      firstClash? (Token.ofDue s.operandDue :: (v ++ rest)) =
        firstClash? (Token.ofDue s'.operandDue :: rest)

namespace Scanner.UpToClash

variable {s : Scanner} {t : Token} {v : List Token} {P : Scanner → Prop}

theorem nil (h : P s) : UpToClash s [] P := fun _ => .inr ⟨s, rfl, h, rfl⟩

theorem mono {Q : Scanner → Prop} (h : UpToClash s v P) (hQ : ∀ s', P s' → Q s') :
    UpToClash s v Q := by
  intro rest
  rcases h rest with hclash | ⟨s', hrun, hP, hnext⟩
  · exact .inl hclash
  · exact .inr ⟨s', hrun, hQ s' hP, hnext⟩

/-- A clashing token stops the scanner, and it is the first clash. -/
theorem clash (h : (Token.ofDue s.operandDue).clashes t = true) : UpToClash s (t :: v) P := by
  intro rest
  refine .inl ⟨t, by simp [firstClash?, h], Scanner.firstReject_cons_of_step_eq_none ?_ _⟩
  obtain ⟨q, d⟩ := s
  cases q <;> cases t <;>
    simp_all [Token.ofDue, Token.clashes, Token.endsOperand, Token.awaitsOperand, Scanner.step]

/-- A token that does not clash and that the scanner takes moves both on by one. -/
theorem step {s₁ : Scanner} (ht : t ≠ .eof) (hc : (Token.ofDue s.operandDue).clashes t = false)
    (hs : s.step t = some s₁) (h : UpToClash s₁ v P) : UpToClash s (t :: v) P := by
  intro rest
  have hq : s₁.operandDue = t.awaitsOperand := (Scanner.step_eq_some hs).2.1
  have hmove : firstClash? (Token.ofDue s.operandDue :: t :: (v ++ rest)) =
      firstClash? (Token.ofDue s₁.operandDue :: (v ++ rest)) := by
    rw [firstClash?, if_neg (by simp [hc]), hq]
    apply firstClash?_cons_congr <;> cases t <;>
      simp_all [Token.ofDue, Token.awaitsOperand, Token.endsOperand]
  rw [List.cons_append, hmove, Scanner.firstReject_cons_of_step hs, Scanner.run_cons, hs]
  exact h rest

end Scanner.UpToClash

/-- Where it does not clash, a body that the check lets stand is one the scanner takes. -/
theorem Token.fits_of_kind {b : Token} {k : TokenKind} (hb : b.kind? = some k) {q : Bool}
    (hop : k.isOperand → q = true) (hopr : k = .operator → q = false)
    (hc : (Token.ofDue q).clashes b = false) :
    if q then b.startsOperand else b.followsOperand := by
  cases b <;> cases hb <;> cases q <;>
    simp_all [Token.ofDue, Token.clashes, Token.startsOperand, Token.followsOperand,
      Token.endsOperand, Token.awaitsOperand, TokenKind.isOperand]

/-- After a body that may stand where it is, the scanner expects what the check does. -/
theorem Token.awaitsOperand_of_kind {b : Token} {k : TokenKind} (hb : b.kind? = some k) {q : Bool}
    (hop : k.isOperand → q = true) (hopr : k = .operator → q = false) :
    b.awaitsOperand = k.dueAfter q := by
  cases b <;> cases hb <;> cases q <;> simp_all [Token.awaitsOperand, TokenKind.dueAfter,
    TokenKind.isOperand]

theorem pos_of_balancedFrom_false {d : Nat} {bs : List Bool}
    (h : balancedFrom d (false :: bs) = true) : 0 < d := by
  cases d
  · simp [balancedFrom] at h
  · omega

/-- A `)` the brackets after it leave balanced: it clashes where an operand is due, and otherwise
the scanner takes it, from an operator due to an operator due. -/
theorem Scanner.upToClash_rparen {s : Scanner} {bs : List Bool}
    (hbal : balancedFrom s.depth (false :: bs) = true) :
    UpToClash s [.rparen] fun s' => s'.operandDue = false ∧ s.operandDue = false := by
  by_cases hq : s.operandDue = true
  · exact .clash (by simp [Token.ofDue, hq, Token.clashes, Token.awaitsOperand])
  rw [Bool.not_eq_true] at hq
  obtain ⟨s', hs'⟩ := Scanner.step_isSome (s := s) (t := .rparen)
    (by simp [hq, Token.followsOperand]) (fun _ => pos_of_balancedFrom_false hbal)
  obtain ⟨-, hq', -, -⟩ := Scanner.step_eq_some hs'
  refine .step (by simp) (by simp [Token.ofDue, hq, Token.clashes, Token.awaitsOperand]) hs'
    (.nil ⟨?_, hq⟩)
  simpa [Token.awaitsOperand] using hq'

/-- A word's body and its peeled `)`, from where the check and the scanner agree: the scanner
stops at a clash among them, or leaves the two agreeing again. When an operand is due after them,
the body was an operator or a `(`, which is still open. -/
theorem Scanner.upToClash_body {b : Token} {k : TokenKind} (hb : b.kind? = some k) (r : Bool)
    {s : Scanner} (hop : k.isOperand → s.operandDue = true)
    (hopr : k = .operator → s.operandDue = false) {bs : List Bool}
    (hbal : balancedFrom s.depth
      ((b :: if r then [Token.rparen] else []).filterMap Token.bracket? ++ bs) = true) :
    UpToClash s (b :: if r then [Token.rparen] else []) fun s' =>
      s'.operandDue = k.dueAfter s.operandDue ∧
        (s'.operandDue = true → k = .operator ∨ 0 < s'.depth) := by
  have hne : b ≠ .eof := by
    rintro rfl
    cases hb
  by_cases hc : (Token.ofDue s.operandDue).clashes b = true
  · exact .clash hc
  rw [Bool.not_eq_true] at hc
  have hdepth : b = .rparen → 0 < s.depth := by
    rintro rfl
    exact pos_of_balancedFrom_false hbal
  obtain ⟨s₁, hs₁⟩ := Scanner.step_isSome (Token.fits_of_kind hb hop hopr hc) hdepth
  obtain ⟨-, hq₁, -, hd₁⟩ := Scanner.step_eq_some hs₁
  have hdue : s₁.operandDue = k.dueAfter s.operandDue := by
    rw [hq₁, Token.awaitsOperand_of_kind hb hop hopr]
  have hbal₁ : balancedFrom s₁.depth
      ((if r then [Token.rparen] else []).filterMap Token.bracket? ++ bs) = true := by
    rw [← Scanner.balancedFrom_step hs₁]
    cases hbr : b.bracket? <;> simpa [List.filterMap_cons, hbr] using hbal
  refine .step hne hc hs₁ ?_
  cases r
  · -- the word ends with its body: an operand is due after an operator or an open `(`
    refine .nil ⟨hdue, fun hq => ?_⟩
    rw [hq₁] at hq
    cases b <;> simp_all [Token.awaitsOperand, Token.kind?]
  · have hopen : balancedFrom s₁.depth (false :: bs) = true := by
      simpa [List.filterMap_cons, Token.bracket?] using hbal₁
    refine (Scanner.upToClash_rparen hopen).mono fun s' hs' => ⟨?_, fun hq => ?_⟩
    · rw [hs'.1, ← hdue, hs'.2]
    · simp [hs'.1] at hq

/-- A word's tokens, from where the check and the scanner agree, either hold the first clash,
where the scanner stops, or leave the two agreeing again after the word. -/
theorem Word.upToClash {w : Word} {k : TokenKind} (hk : w.kind = some k) {s : Scanner}
    (hop : k.isOperand → s.operandDue = true) (hopr : k = .operator → s.operandDue = false)
    {bs : List Bool}
    (hbal : balancedFrom s.depth (w.tokenList.filterMap Token.bracket? ++ bs) = true) :
    Scanner.UpToClash s w.tokenList fun s' =>
      s'.operandDue = k.dueAfter s.operandDue ∧
        (s'.operandDue = true → k = .operator ∨ 0 < s'.depth) := by
  obtain ⟨b, hts, hb, -⟩ := Word.tokenList_of_kind hk
  rw [hts] at hbal ⊢
  revert hbal
  cases w.leadingParen <;> intro hbal
  · exact Scanner.upToClash_body hb _ hop hopr (by simpa using hbal)
  obtain ⟨q, d⟩ := s
  cases q
  · -- a peeled `(` right after the end of an operand
    exact .clash rfl
  · -- after the peeled `(` an operand is due, as it was: the body reads from there
    have hopen : Scanner.step ⟨true, d⟩ .lparen = some ⟨true, d + 1⟩ := rfl
    refine .step (by simp) rfl hopen ?_
    exact Scanner.upToClash_body hb _ (fun _ => rfl) hopr
      (by simpa [List.filterMap_cons, Token.bracket?, balancedFrom] using hbal)

/-- Word after word, the scanner stops where the first clash is. The invariant is that the check
and the scanner expect the same, `q`; when an operand is due, either no word has been read, or the
last was an operator, or a bracket is open, so the stream cannot end there. -/
theorem firstReject_words {ws : List Word} {q : Bool} {last : Option (Word × TokenKind)}
    {d : Nat} (hcheck : checkWords ws q last = .ok ())
    (hbal : balancedFrom d ((ws.flatMap Word.tokenList).filterMap Token.bracket?) = true)
    (hdue : q = true → last = none ∨ (∃ w, last = some (w, .operator)) ∨ 0 < d) :
    Scanner.firstReject ⟨q, d⟩ (ws.flatMap Word.tokenList) =
      firstClash? (Token.ofDue q :: ws.flatMap Word.tokenList) := by
  induction ws generalizing q last d with
  | nil =>
    obtain ⟨w, k, rfl, hk⟩ := checkWords_nil_eq_ok.1 hcheck
    obtain rfl : d = 0 := by simpa [balancedFrom] using hbal
    obtain rfl : q = false := by
      cases q
      · rfl
      · rcases hdue rfl with h | ⟨w', h⟩ | h
        · cases h
        · cases h
          exact absurd rfl hk
        · omega
    simp [Scanner.firstReject, firstClash?]
  | cons w ws ih =>
    obtain ⟨k, hk, hop, hopr, hrest⟩ := checkWords_cons_eq_ok hcheck
    rw [List.flatMap_cons, List.filterMap_append] at hbal
    rw [List.flatMap_cons]
    rcases Word.upToClash (s := ⟨q, d⟩) hk hop hopr hbal (ws.flatMap Word.tokenList) with
      ⟨t, hclash, hreject⟩ | ⟨⟨q', d'⟩, hrun, ⟨hq', hdue'⟩, hnext⟩
    · rw [hclash, hreject]
    · rw [Scanner.firstReject_append hrun, hnext]
      simp only at hq' hdue' ⊢
      subst hq'
      refine ih hrest ?_ fun hq => ?_
      · rw [Scanner.balancedFrom_run hrun] at hbal
        exact hbal
      · rcases hdue' hq with hop | hd
        · exact .inr (.inl ⟨w, by rw [hop]⟩)
        · exact .inr (.inr hd)

/-- With balanced brackets a stream does not open on `)`, so nothing clashes with a `(` put
before it. -/
theorem firstClash?_lparen_cons {ts : List Token}
    (h : balancedFrom 0 (ts.filterMap Token.bracket?) = true) :
    firstClash? (.lparen :: ts) = firstClash? ts := by
  rcases ts with _ | ⟨t, ts⟩
  · rfl
  · cases t <;> simp_all [firstClash?, Token.clashes, Token.endsOperand, List.filterMap_cons,
      Token.bracket?, balancedFrom]

/-- **On a checked expression the scanner stops at the first clash**, and reads the whole stream
when there is none. -/
theorem firstReject_eq_firstClash {s : String} (h : validate s = .ok ()) :
    Scanner.start.firstReject (lex s).tokens = firstClash? (lex s).tokens := by
  obtain ⟨hwords, hbrackets⟩ := validate_eq_ok_iff.1 h
  have hk := kind_isSome_of_checkWords hwords
  have htokens : (lex s).tokens = (wordsOf s).flatMap Word.tokenList := lexWords_tokens hk
  have hbal : balancedFrom 0 ((lex s).tokens.filterMap Token.bracket?) = true := by
    rw [← brackets_lex hk]
    exact (checkBrackets_eq_ok_iff s).1 hbrackets
  rw [← firstClash?_lparen_cons hbal, htokens]
  rw [htokens] at hbal
  exact firstReject_words hwords hbal fun _ => .inl rfl

/-- A checked expression has tokens, all of them from words with a class. -/
theorem tokenize_of_validate {s : String} (h : validate s = .ok ()) :
    (lex s).tokenize = .ok (lex s).tokens ∧ (lex s).tokens ≠ [] := by
  refine ⟨Lexed.tokenize_eq_ok_iff.2 ⟨?_, rfl⟩, fun hnil => ?_⟩
  · exact (lexWords_stop _).2 (kind_isSome_of_checkWords (validate_eq_ok_iff.1 h).1)
  · have hfirst := firstReject_eq_firstClash h
    simp [hnil, Scanner.firstReject, Scanner.start, firstClash?] at hfirst

end AttrExpr
