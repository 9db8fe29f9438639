import AttrExpr.Proofs.Parse

/-!
# Writing a tree and reading it back

A tree is written as words separated by spaces: its leaves as they are, its operators by their
symbols, and `(` and `)` as words of their own around a subtree. A *rendering* (`Rendering`)
brackets a subtree at least where precedence asks for it: a left operand whose operator binds
less tightly than its parent's, or as tightly under `^`; a right operand whose operator binds
less tightly, or as tightly under anything but `^`. It may bracket any subtree, a leaf or the
whole tree included, any number of times more.

Every rendering of a tree whose leaves are well written reads back as that tree. So `^` binds
tightest and groups to the right, `*` and `/` bind tighter than `+` and `-`, those two tiers
group to the left, and redundant brackets change nothing.

The proof runs the builder's tiers on a rendering followed by any tokens: a rendering whose top
operator has tier `k` (tier `4` for a leaf or a bracketed rendering) is read whole by each tier at
or below `k`, as long as what follows cannot extend it (`Reads`). The tiers are then taken in
turn over the rendering's derivation.

## Main definitions

* `AttrExpr.Expr.wellWritten` — the leaves are a number and paths with no blank
* `AttrExpr.leftNeedsGroup`, `AttrExpr.rightNeedsGroup` — where precedence asks for brackets
* `AttrExpr.Rendering` — the renderings of a tree, as token lists
* `AttrExpr.render` — the text of a token list

## Main results

* `AttrExpr.lex_render` — a rendering's text has the rendering as its tokens
* `AttrExpr.Rendering.reads` — every tier reads a rendering whole
* `AttrExpr.parseExpression_render` — every rendering reads back as its tree
-/

namespace AttrExpr

/-! ## Renderings -/

/-- The leaves of a tree are numbers and paths with no blank, as the lexer can give them back. -/
def Expr.wellWritten : Expr → Bool
  | .number text => isNumber text
  | .attribute path => isAttribute path && path.toList.all (!isBlank ·)
  | .binary _ l r => l.wellWritten && r.wellWritten

/-- Whether a left operand of `op` needs brackets: its operator binds less tightly, or as tightly
when `op` is `^`. -/
def leftNeedsGroup (op : BinOp) : Expr → Bool
  | .binary inner _ _ =>
    decide (inner.precedence < op.precedence) ||
      decide (inner.precedence = op.precedence) && decide (op = .power)
  | _ => false

/-- Whether a right operand of `op` needs brackets: its operator binds less tightly, or as
tightly when `op` is not `^`. -/
def rightNeedsGroup (op : BinOp) : Expr → Bool
  | .binary inner _ _ =>
    decide (inner.precedence < op.precedence) ||
      decide (inner.precedence = op.precedence) && decide (op ≠ .power)
  | _ => false

/-- The renderings of a tree as token lists; the flag tells whether the rendering is one pair of
brackets around a rendering. -/
inductive Rendering : Expr → List Token → Bool → Prop
  | number (text : String) : Rendering (.number text) [.number text] false
  | attribute (path : String) : Rendering (.attribute path) [.attribute path] false
  | group {e : Expr} {u : List Token} {g : Bool} :
      Rendering e u g → Rendering e (.lparen :: u ++ [.rparen]) true
  | binary {op : BinOp} {l r : Expr} {ul ur : List Token} {gl gr : Bool} :
      Rendering l ul gl → Rendering r ur gr →
      (leftNeedsGroup op l = true → gl = true) → (rightNeedsGroup op r = true → gr = true) →
      Rendering (.binary op l r) (ul ++ .operator op :: ur) false

/-- The text of a token list: the tokens as words, separated by spaces. -/
def render (u : List Token) : String := " ".intercalate (u.map Token.display)

/-! ## The text of a rendering -/

/-- A token the lexer gives back from its text alone: a number, a path with no blank, an operator
or a bracket. -/
def Token.writable : Token → Bool
  | .number text => isNumber text
  | .attribute path => isAttribute path && path.toList.all (!isBlank ·)
  | .eof => false
  | _ => true

theorem Rendering.writable {e : Expr} {u : List Token} {g : Bool} (hr : Rendering e u g)
    (he : e.wellWritten = true) : ∀ t ∈ u, t.writable = true := by
  induction hr
  case group ih =>
    intro t ht
    simp only [List.cons_append, List.mem_cons, List.mem_append, List.not_mem_nil,
      or_false] at ht
    rcases ht with rfl | ht | rfl
    · rfl
    · exact ih he t ht
    · rfl
  case binary ihl ihr =>
    simp only [Expr.wellWritten, Bool.and_eq_true] at he
    intro t ht
    simp only [List.mem_append, List.mem_cons] at ht
    rcases ht with ht | rfl | ht
    · exact ihl he.1 t ht
    · rfl
    · exact ihr he.2 t ht
  -- the two leaves
  all_goals simpa [Token.writable, Expr.wellWritten] using he

theorem Rendering.readsOperand {e : Expr} {u : List Token} {g : Bool} (hr : Rendering e u g) :
    ReadsOperand u := by
  induction hr
  case number text => exact readsOperand_number text
  case group ih => exact ih.group
  case binary ihl ihr => exact ihl.binary ihr
  next path => exact readsOperand_attribute path

theorem isBlank_of_isNumberChar {c : Char} (h : isNumberChar c = true) : isBlank c = false := by
  simp only [isNumberChar, Char.isDigit, Bool.or_eq_true, Bool.and_eq_true, decide_eq_true_eq,
    beq_iff_eq] at h
  rcases h with ((((⟨h₁, h₂⟩ | rfl) | rfl) | rfl) | rfl) | rfl
  · have h₁' : 48 ≤ c.toNat := h₁
    have h₂' : c.toNat ≤ 57 := h₂
    simp only [isBlank, Bool.or_eq_false_iff, Bool.and_eq_false_iff, decide_eq_false_iff_not,
      beq_eq_false_iff_ne]
    omega
  all_goals decide

/-- The text of a writable token is one word: not empty, and with no blank. -/
theorem Token.display_word {t : Token} (ht : t.writable = true) :
    t.display.toList ≠ [] ∧ ∀ c ∈ t.display.toList, isBlank c = false := by
  cases t
  case number text =>
    simp only [Token.writable, isNumber, Bool.and_eq_true, Bool.not_eq_true',
      String.isEmpty_eq_false_iff, List.all_eq_true] at ht
    exact ⟨by simpa [Token.display] using ht.1.1,
      fun c hc => isBlank_of_isNumberChar (ht.1.2 c hc)⟩
  next path =>
    simp only [Token.writable, Bool.and_eq_true, List.all_eq_true, Bool.not_eq_true'] at ht
    refine ⟨fun hnil => ?_, ht.2⟩
    have hpath : path.toList = [] := hnil
    have := ht.1
    simp [isAttribute, hpath, splitSlash] at this
  case operator op => cases op <;> simp [Token.display, BinOp.text, BinOp.symbol, isBlank]
  case eof => cases ht
  all_goals simp [Token.display, isBlank]

/-- The words of a text written from words with no blank are those words. -/
theorem words_intercalate {ws : List String}
    (h : ∀ w ∈ ws, w.toList ≠ [] ∧ ∀ c ∈ w.toList, isBlank c = false) :
    words (" ".intercalate ws) = ws := by
  rw [words_eq_pieces, String.toList_intercalate]
  have hpieces : ∀ ws : List String, ws ≠ [] →
      (∀ w ∈ ws, ∀ c ∈ w.toList, isBlank c = false) →
      ([' '].intercalate (ws.map String.toList)).splitOnP isBlank = ws.map String.toList := by
    intro ws hne hw
    induction ws with
    | nil => exact absurd rfl hne
    | cons w ws ih =>
      simp only [List.mem_cons, forall_eq_or_imp] at hw
      rcases ws with _ | ⟨w', ws⟩
      · simpa using List.splitOnP_eq_singleton hw.1
      · rw [List.map_cons, List.map_cons, List.intercalate_cons_cons, List.append_assoc,
          List.singleton_append, List.splitOnP_append_cons_of_forall_mem hw.1 ' ' (by decide)]
        rw [← List.map_cons, ih (by simp) hw.2]
  rcases ws with _ | ⟨w, ws⟩
  · rfl
  · rw [show " ".toList = [' '] from rfl, hpieces _ (by simp) fun w hw => (h w hw).2]
    rw [List.filter_eq_self.2 fun w hw => by
      obtain ⟨v, hv, rfl⟩ := List.mem_map.1 hw
      simpa using (h v hv).1]
    simp [Function.comp_def]

/-! ## The words of a rendering -/

/-- A word with no bracket character, or of one character, has nothing peeled. -/
theorem peelBrackets_of_unbracketed {cs : List Char}
    (h : cs.length ≤ 1 ∨ ∀ c ∈ cs, charBracket? c = none) :
    peelBrackets cs = (false, cs, false) := by
  have hhead : 1 < cs.length → ¬cs.head? = some '(' := by
    intro hlen hhead
    rcases h with h | h
    · omega
    · simpa [charBracket?] using h '(' (List.mem_of_head? hhead)
  have hlast : 1 < cs.length → ¬cs.getLast? = some ')' := by
    intro hlen hlast
    rcases h with h | h
    · omega
    · simpa [charBracket?] using h ')' (List.mem_of_getLast? hlast)
  have hlead : (decide (cs.length > 1) && cs.head? == some '(') = false := by simpa using hhead
  have htrail : (decide (cs.length > 1) && cs.getLast? == some ')') = false := by
    simpa using hlast
  simp only [peelBrackets]
  rw [hlead]
  simp only [Bool.false_eq_true, if_false]
  rw [htrail]
  rfl

theorem splitSlash_of_not_mem {cs : List Char} (h : '/' ∉ cs) : splitSlash cs = [cs] := by
  induction cs with
  | nil => rfl
  | cons c cs ih =>
    simp only [List.mem_cons, not_or] at h
    simp [splitSlash, Ne.symm h.1, ih h.2]

/-- A path holds a `/`: four pieces need three. -/
theorem slash_mem_of_isAttribute {t : String} (h : isAttribute t = true) : '/' ∈ t.toList := by
  by_contra hnot
  simp [isAttribute, splitSlash_of_not_mem hnot] at h

/-- A path holds a `/`, so it is no number. -/
theorem not_isNumber_of_isAttribute {t : String} (h : isAttribute t = true) :
    isNumber t = false := by
  simp only [isNumber, Bool.and_eq_false_iff, List.all_eq_false]
  exact .inl (.inr ⟨'/', slash_mem_of_isAttribute h, by decide⟩)

theorem isNumber_text (op : BinOp) : isNumber op.text = false := by
  cases op <;> decide

theorem isAttribute_text (op : BinOp) : isAttribute op.text = false := by
  cases op <;> decide

/-- The text of an operand token is never `(`, `)` or an operator. -/
theorem classify_of_operand {t : String} (hb : ∀ c ∈ t.toList, charBracket? c = none)
    (hop : ∀ op : BinOp, t ≠ op.text) :
    classify t = if isNumber t then some .number else if isAttribute t then some .attribute
      else none := by
  have hl : t ≠ "(" := fun h => by simpa [h, charBracket?] using hb '('
  have hr : t ≠ ")" := fun h => by simpa [h, charBracket?] using hb ')'
  have ho : isOperator t = false := by
    cases hsym : BinOp.ofSymbol? t with
    | none => simp [isOperator, hsym]
    | some op => exact absurd (ofSymbol?_eq_some hsym) (hop op)
  simp [classify, hl, hr, ho]

/-- A writable token's text is a word with nothing peeled, whose only token is the token. -/
theorem Word.tokens_ofText_display {t : Token} (ht : t.writable = true) :
    (Word.ofText t.display).tokens = .ok [t] := by
  have hword : ∀ d : String,
      (d.toList.length ≤ 1 ∨ ∀ c ∈ d.toList, charBracket? c = none) →
      Word.ofText d = ⟨d, d, false, false⟩ := by
    intro d hd
    simp [Word.ofText, peelBrackets_of_unbracketed hd]
  cases t
  case number text =>
    have hn : isNumber text = true := ht
    have hb := fun c hc => charBracket?_of_isNumber hn (c := c) hc
    have hc : classify text = some .number := by
      rw [classify_of_operand hb fun op h => by simp [h, isNumber_text] at hn, hn]
      rfl
    simp [Token.display, hword text (.inr hb), Word.tokens, Word.bodyToken, Word.kind, hc]
  next path =>
    simp only [Token.writable, Bool.and_eq_true] at ht
    have hb := fun c hc => charBracket?_of_isAttribute ht.1 (c := c) hc
    have hc : classify path = some .attribute := by
      rw [classify_of_operand hb fun op h => by simp [h, isAttribute_text] at ht,
        not_isNumber_of_isAttribute ht.1, ht.1]
      rfl
    simp [Token.display, hword path (.inr hb), Word.tokens, Word.bodyToken, Word.kind, hc]
  case operator op =>
    rw [hword _ (.inl (by cases op <;> decide))]
    cases op <;> rfl
  case eof => cases ht
  all_goals rfl

/-- **The tokens of a rendering's text are the rendering.** -/
theorem lex_render {u : List Token} (hu : ∀ t ∈ u, t.writable = true) :
    lex (render u) = ⟨u, .done⟩ := by
  rw [lex, wordsOf, render, words_intercalate fun w hw => by
    obtain ⟨t, ht, rfl⟩ := List.mem_map.1 hw
    exact Token.display_word (hu t ht), List.map_map]
  induction u with
  | nil => rfl
  | cons t u ih =>
    simp only [List.mem_cons, forall_eq_or_imp] at hu
    simp [lexWords, Word.tokens_ofText_display hu.1, ih hu.2]

/-! ## The tiers on a rendering -/

theorem HeadBelow.mono {j k : Nat} {r : List Token} (h : HeadBelow j r) (hjk : j ≤ k) :
    HeadBelow k r := fun op rest hr => Nat.lt_of_lt_of_le (h op rest hr) hjk

theorem operatorAt_of_headBelow {k : Nat} {r : List Token} (h : HeadBelow k r) :
    operatorAt k r = none := by
  rcases r with _ | ⟨t, r⟩
  · rfl
  · cases t
    case operator op => simp [operatorAt, Nat.ne_of_lt (h op r rfl)]
    all_goals rfl

theorem operatorAt_operator {k : Nat} {op : BinOp} (hop : op.precedence = k) (rest : List Token) :
    operatorAt k (.operator op :: rest) = some (op, rest) := by
  simp [operatorAt, hop]

theorem headBelow_operator {k : Nat} {op : BinOp} (hop : op.precedence < k) (rest : List Token) :
    HeadBelow k (.operator op :: rest) := by
  rintro op' _ h
  cases h
  exact hop

namespace Build

/-- A tier's result with the bound on the tokens left dropped. -/
def result {ts : List Token} : Except ParseError (Expr × Rest ts) →
    Except ParseError (Expr × List Token)
  | .ok (e, r) => .ok (e, r.1)
  | .error err => .error err

theorem eq_ok_of_result {ts : List Token} {x : Except ParseError (Expr × Rest ts)} {e : Expr}
    {r : List Token} (h : result x = .ok (e, r)) : ∃ hr, x = .ok (e, ⟨r, hr⟩) := by
  rcases x with err | ⟨e', r', hr'⟩
  · cases h
  · simp only [result, Except.ok.injEq, Prod.mk.injEq] at h
    obtain ⟨rfl, rfl⟩ := h
    exact ⟨hr', rfl⟩

theorem chainStep_result {inner : (ts : List Token) → Except ParseError (Expr × Rest ts)}
    {loop : Expr → (ts : List Token) → Except ParseError (Expr × Rest ts)} {ts : List Token}
    {e : Expr} {r : List Token} (h : result (inner ts) = .ok (e, r)) :
    result (chainStep inner loop ts) = result (loop e r) := by
  obtain ⟨hr, hx⟩ := eq_ok_of_result h
  unfold chainStep
  rw [hx]
  dsimp only
  generalize loop e r = x
  rcases x with err | ⟨e', r', hr'⟩ <;> rfl

theorem loopStep_result_none {stop : Stop} {k : Nat}
    {inner : (ts : List Token) → Except ParseError (Expr × Rest ts)}
    {loop : Expr → (ts : List Token) → Except ParseError (Expr × Rest ts)} {left : Expr}
    {ts : List Token} (h : operatorAt k ts = none) :
    result (loopStep stop k inner loop left ts) = .ok (left, ts) := by
  unfold loopStep
  split
  · rfl
  · simp_all

theorem loopStep_result_some {k : Nat}
    {inner : (ts : List Token) → Except ParseError (Expr × Rest ts)}
    {loop : Expr → (ts : List Token) → Except ParseError (Expr × Rest ts)} {left right : Expr}
    {op : BinOp} {ts r1 r2 : List Token} (h : operatorAt k ts = some (op, r1))
    (hinner : result (inner r1) = .ok (right, r2)) :
    result (loopStep .done k inner loop left ts) = result (loop (.binary op left right) r2) := by
  obtain ⟨hr2, hx⟩ := eq_ok_of_result hinner
  unfold loopStep
  split
  · simp_all
  · rename_i op' r1' hop
    obtain ⟨rfl, rfl⟩ : op' = op ∧ r1' = r1 := by simpa [h] using hop.symm
    simp only [Stop.advance_done, hx]
    split <;> simp_all [result]

theorem primary_result_group {ts rest : List Token} {e : Expr}
    (h : result (additive .done ts) = .ok (e, .rparen :: rest)) :
    result (primary .done (.lparen :: ts)) = .ok (e, rest) := by
  obtain ⟨hr, hx⟩ := eq_ok_of_result h
  rw [primary]
  simp [hx, Stop.expect, result]

theorem power_result_of_primary {ts r : List Token} {e : Expr}
    (hp : result (primary .done ts) = .ok (e, r)) (hop : operatorAt 3 r = none) :
    result (power .done ts) = .ok (e, r) := by
  obtain ⟨hr, hx⟩ := eq_ok_of_result hp
  rw [power]
  simp only [hx]
  split
  · rfl
  · simp_all

theorem power_result_step {ts r r1 r2 : List Token} {base exponent : Expr} {op : BinOp}
    (hp : result (primary .done ts) = .ok (base, r)) (hop : operatorAt 3 r = some (op, r1))
    (hexp : result (power .done r1) = .ok (exponent, r2)) :
    result (power .done ts) = .ok (.binary op base exponent, r2) := by
  obtain ⟨hr, hx⟩ := eq_ok_of_result hp
  obtain ⟨hr2, hy⟩ := eq_ok_of_result hexp
  rw [power]
  simp only [hx]
  split
  · simp_all
  · rename_i op' r1' hop'
    obtain ⟨rfl, rfl⟩ : op' = op ∧ r1' = r1 := by simpa [hop] using hop'.symm
    simp only [Stop.advance_done, hy]
    rfl

end Build

open Build

/-- What the tiers do on a rendering `u` of `e` whose top operator has tier `k`, followed by any
tokens that cannot extend it: the tiers at or below `k` read `u` whole and give back `e`; the two
loops then go on after `e`. -/
structure Reads (e : Expr) (u : List Token) (k : Nat) : Prop where
  primary : 4 ≤ k → ∀ rest, result (primary .done (u ++ rest)) = .ok (e, rest)
  power : 3 ≤ k → ∀ rest, HeadBelow 3 rest →
    result (power .done (u ++ rest)) = .ok (e, rest)
  multiplicative : 2 ≤ k → ∀ rest, HeadBelow 3 rest →
    result (multiplicative .done (u ++ rest)) = result (mulTail .done e rest)
  additive : ∀ rest, HeadBelow 2 rest →
    result (additive .done (u ++ rest)) = result (addTail .done e rest)

namespace Reads

variable {e : Expr} {u : List Token}

theorem additive_of_multiplicative
    (h : ∀ rest, HeadBelow 3 rest →
      result (Build.multiplicative .done (u ++ rest)) = result (mulTail .done e rest))
    (rest : List Token) (hrest : HeadBelow 2 rest) :
    result (Build.additive .done (u ++ rest)) = result (addTail .done e rest) := by
  rw [additive_eq]
  apply chainStep_result
  rw [h rest (hrest.mono (by omega)), mulTail_eq]
  exact loopStep_result_none (operatorAt_of_headBelow hrest)

theorem multiplicative_of_power
    (h : ∀ rest, HeadBelow 3 rest → result (Build.power .done (u ++ rest)) = .ok (e, rest))
    (rest : List Token) (hrest : HeadBelow 3 rest) :
    result (Build.multiplicative .done (u ++ rest)) = result (mulTail .done e rest) := by
  rw [multiplicative_eq]
  exact chainStep_result (h rest hrest)

theorem power_of_primary (h : ∀ rest, result (Build.primary .done (u ++ rest)) = .ok (e, rest))
    (rest : List Token) (hrest : HeadBelow 3 rest) :
    result (Build.power .done (u ++ rest)) = .ok (e, rest) :=
  power_result_of_primary (h rest) (operatorAt_of_headBelow hrest)

theorem of_additive
    (h : ∀ rest, HeadBelow 2 rest →
      result (Build.additive .done (u ++ rest)) = result (addTail .done e rest)) :
    Reads e u 1 :=
  ⟨by omega, by omega, by omega, h⟩

theorem of_multiplicative
    (h : ∀ rest, HeadBelow 3 rest →
      result (Build.multiplicative .done (u ++ rest)) = result (mulTail .done e rest)) :
    Reads e u 2 :=
  ⟨by omega, by omega, fun _ => h, additive_of_multiplicative h⟩

theorem of_power
    (h : ∀ rest, HeadBelow 3 rest → result (Build.power .done (u ++ rest)) = .ok (e, rest)) :
    Reads e u 3 :=
  ⟨by omega, fun _ => h, fun _ => multiplicative_of_power h,
    additive_of_multiplicative (multiplicative_of_power h)⟩

theorem of_primary (h : ∀ rest, result (Build.primary .done (u ++ rest)) = .ok (e, rest)) :
    Reads e u 4 :=
  ⟨fun _ => h, fun _ => power_of_primary h, fun _ => multiplicative_of_power (power_of_primary h),
    additive_of_multiplicative (multiplicative_of_power (power_of_primary h))⟩

theorem mono {j k : Nat} (h : Reads e u k) (hjk : j ≤ k) : Reads e u j :=
  ⟨fun hj => h.primary (by omega), fun hj => h.power (by omega),
    fun hj => h.multiplicative (by omega), h.additive⟩

/-- A bracketed rendering is read by `primary`, whatever its inside. -/
theorem group (h : Reads e u 1) : Reads e (.lparen :: u ++ [.rparen]) 4 := by
  refine of_primary fun rest => ?_
  rw [show Token.lparen :: u ++ [Token.rparen] ++ rest = .lparen :: (u ++ .rparen :: rest) by simp]
  apply primary_result_group
  have hclose : HeadBelow 2 (.rparen :: rest) := by
    rintro op _ h
    cases h
  rw [h.additive _ hclose, addTail_eq]
  exact loopStep_result_none rfl

/-- `^` is read by `power`, which takes a primary and then the rest of the chain. -/
theorem power_node {op : BinOp} {l r : Expr} {ul ur : List Token} (hl : Reads l ul 4)
    (hr : Reads r ur 3) (hop : op.precedence = 3) :
    Reads (.binary op l r) (ul ++ .operator op :: ur) 3 := by
  refine of_power fun rest hrest => ?_
  rw [List.append_assoc, List.cons_append]
  exact power_result_step (hl.primary le_rfl _) (operatorAt_operator hop _)
    (hr.power le_rfl rest hrest)

/-- `*` and `/` are read by the loop of `multiplicative`, after their left operand. -/
theorem multiply_node {op : BinOp} {l r : Expr} {ul ur : List Token} (hl : Reads l ul 2)
    (hr : Reads r ur 3) (hop : op.precedence = 2) :
    Reads (.binary op l r) (ul ++ .operator op :: ur) 2 := by
  refine of_multiplicative fun rest hrest => ?_
  rw [List.append_assoc, List.cons_append,
    hl.multiplicative le_rfl _ (headBelow_operator (by omega) _), mulTail_eq,
    loopStep_result_some (operatorAt_operator hop _) (hr.power le_rfl rest hrest)]

/-- `+` and `-` are read by the loop of `additive`, after their left operand. -/
theorem add_node {op : BinOp} {l r : Expr} {ul ur : List Token} (hl : Reads l ul 1)
    (hr : Reads r ur 2) (hop : op.precedence = 1) :
    Reads (.binary op l r) (ul ++ .operator op :: ur) 1 := by
  refine of_additive fun rest hrest => ?_
  -- the right operand is a product, and no `*` or `/` follows it
  have hright : result (Build.multiplicative .done (ur ++ rest)) = .ok (r, rest) := by
    rw [hr.multiplicative le_rfl rest (hrest.mono (by omega)), mulTail_eq]
    exact loopStep_result_none (operatorAt_of_headBelow hrest)
  rw [List.append_assoc, List.cons_append, hl.additive _ (headBelow_operator (by omega) _),
    addTail_eq, loopStep_result_some (operatorAt_operator hop _) hright]

end Reads

/-- The tier of a rendering: that of its top operator, `4` for a leaf or a bracketed one. -/
def renderingTier (e : Expr) (g : Bool) : Nat :=
  if g then 4 else
    match e with
    | .binary op _ _ => op.precedence
    | _ => 4

theorem one_le_renderingTier (e : Expr) (g : Bool) : 1 ≤ renderingTier e g := by
  unfold renderingTier
  split
  · omega
  · split
    · exact BinOp.precedence_pos _
    · omega

/-- Where the left operand needs no brackets, it binds at least as tightly as its parent, and
more tightly under `^`. -/
theorem renderingTier_left {op : BinOp} {l : Expr} {gl : Bool}
    (h : leftNeedsGroup op l = true → gl = true) :
    op.precedence + (if op = .power then 1 else 0) ≤ renderingTier l gl := by
  cases gl
  · cases l with
    | binary op' _ _ =>
      cases op <;> cases op' <;> simp_all [leftNeedsGroup, renderingTier, BinOp.precedence]
    | _ => cases op <;> simp [renderingTier, BinOp.precedence]
  · cases op <;> simp [renderingTier, BinOp.precedence]

/-- Where the right operand needs no brackets, it binds at least as tightly as its parent, and
more tightly under anything but `^`. -/
theorem renderingTier_right {op : BinOp} {r : Expr} {gr : Bool}
    (h : rightNeedsGroup op r = true → gr = true) :
    op.precedence + (if op = .power then 0 else 1) ≤ renderingTier r gr := by
  cases gr
  · cases r with
    | binary op' _ _ =>
      cases op <;> cases op' <;> simp_all [rightNeedsGroup, renderingTier, BinOp.precedence]
    | _ => cases op <;> simp [renderingTier, BinOp.precedence]
  · cases op <;> simp [renderingTier, BinOp.precedence]

/-- **Every tier reads a rendering whole.** By induction on the rendering: a leaf and a bracketed
rendering go through `primary`, a node through the tier of its operator, with its operands read
by the tiers their own operators allow. -/
theorem Rendering.reads {e : Expr} {u : List Token} {g : Bool} (hr : Rendering e u g) :
    Reads e u (renderingTier e g) := by
  induction hr
  case group e u g _ ih => exact Reads.group (ih.mono (one_le_renderingTier e g))
  case binary op l r ul ur gl gr _ _ hneedl hneedr ihl ihr =>
    have hL := renderingTier_left hneedl
    have hR := renderingTier_right hneedr
    -- each operator is read by the tier of its precedence
    cases op <;> simp only [BinOp.precedence, reduceCtorEq, if_true, if_false] at hL hR
    case power => exact Reads.power_node (ihl.mono hL) (ihr.mono hR) rfl
    case multiply => exact Reads.multiply_node (ihl.mono hL) (ihr.mono hR) rfl
    case divide => exact Reads.multiply_node (ihl.mono hL) (ihr.mono hR) rfl
    case add => exact Reads.add_node (ihl.mono hL) (ihr.mono hR) rfl
    case subtract => exact Reads.add_node (ihl.mono hL) (ihr.mono hR) rfl
  -- the two leaves, read by `primary` alone
  all_goals
    refine Reads.of_primary fun rest => ?_
    rw [List.singleton_append, primary]
    simp only [Stop.advance_done]
    rfl

/-! ## Reading a rendering back -/

/-- A stream that `additive` reads whole is built as what `additive` gives back. -/
theorem Lexed.parse_of_additive {ts : List Token} {e : Expr} (hne : ts ≠ [])
    (h : result (additive .done ts) = .ok (e, [])) : Lexed.parse ⟨ts, .done⟩ = .ok e := by
  obtain ⟨hr, hx⟩ := eq_ok_of_result h
  obtain ⟨t, ts', rfl⟩ := List.exists_cons_of_ne_nil hne
  simp only [Lexed.parse, hx]
  rfl

/-- **Every rendering reads back as its tree.** Whatever brackets a rendering adds beyond those
precedence asks for, and whatever tree it renders, so long as the leaves are well written, the
text of the rendering passes the check and builds that tree. -/
theorem parseExpression_render {e : Expr} (he : e.wellWritten = true) {u : List Token} {g : Bool}
    (hr : Rendering e u g) : parseExpression (render u) = .ok e := by
  have hlex := lex_render (hr.writable he)
  have hk : ∀ w ∈ wordsOf (render u), w.kind.isSome := by
    rw [← lexWords_stop]
    exact congrArg Lexed.stop hlex
  have hrun : Scanner.start.run (lex (render u)).tokens = some ⟨false, 0⟩ := by
    rw [hlex]
    exact hr.readsOperand 0
  rw [parseExpression_eq_of_validate (validate_of_run hk hrun), hlex]
  apply Lexed.parse_of_additive hr.readsOperand.ne_nil
  have hend : HeadBelow 2 [] := by
    rintro op _ h
    cases h
  rw [← List.append_nil u, (hr.reads).additive [] hend, addTail_eq]
  exact loopStep_result_none rfl

theorem parseExpression_render_sum_of_product :
    parseExpression "1 + ( a/b/c/d * 2 )" =
      .ok (.binary .add (.number "1")
        (.binary .multiply (.attribute "a/b/c/d") (.number "2"))) := by
  have htext : render [.number "1", .operator .add, .lparen, .attribute "a/b/c/d",
      .operator .multiply, .number "2", .rparen] = "1 + ( a/b/c/d * 2 )" := by decide
  rw [← htext]
  exact parseExpression_render (by decide)
    (.binary (.number "1")
      (.group (.binary (.attribute "a/b/c/d") (.number "2") (by decide) (by decide)))
      (by decide) (by decide))

end AttrExpr
