import AttrExpr.Syntax.Check
import AttrExpr.Proofs.Shape
import AttrExpr.Proofs.Lexing
import AttrExpr.Proofs.Words
import Mathlib.Data.List.InsertIdx

/-!
# Bracket balance

The bracket check pairs the first `(` with the first `)` as long as the `(` comes first. Read as
a list of brackets, `true` for `(`, that succeeds exactly when the list is *balanced*: counting
the open brackets from the left never goes below zero and ends at zero (`balancedFrom`). The
pairing needs no more than that: whenever the first `(` comes before the first `)`, everything
before that `)` is an opening bracket, so the pair removed is the last `(` of a run of them and
the `)` after it, and the count after the pair is what it was.

The brackets of the text are those of its words, as a blank is no bracket. In a word whose body
has a class they are those of its tokens: a peeled bracket is a token of its own, a body `(` or
`)` is a bracket token, and no operator, number or path holds a bracket character. So for an
expression with no malformed word the bracket check is the balance of the bracket tokens, and
the scanner keeps that count in its depth.

## Main definitions

* `AttrExpr.charBracket?`, `Token.bracket?` — which bracket a character or a token is
* `AttrExpr.balancedFrom` — balance, from a number of brackets already open

## Main results

* `AttrExpr.pairMarks_eq_ok_iff` — the pairing check is balance
* `AttrExpr.brackets_lex` — the text's brackets are its tokens' brackets
* `Scanner.balancedFrom_run` — the scanner's depth counts the open brackets
-/

namespace AttrExpr

/-- Which bracket a character is: `true` for `(`, `false` for `)`. -/
def charBracket? (c : Char) : Option Bool :=
  if c = '(' then some true else if c = ')' then some false else none

/-- Which bracket a token is: `true` for `(`, `false` for `)`. -/
def Token.bracket? : Token → Option Bool
  | .lparen => some true
  | .rparen => some false
  | _ => none

/-- With `d` brackets open, the brackets `bs` (`true` for `(`) never close one that is not
open, and leave none open. -/
def balancedFrom : Nat → List Bool → Bool
  | d, [] => d == 0
  | d, true :: bs => balancedFrom (d + 1) bs
  | 0, false :: _ => false
  | d + 1, false :: bs => balancedFrom d bs

/-- Which bracket a token of a class is. -/
def TokenKind.bracket? : TokenKind → Option Bool
  | .lparen => some true
  | .rparen => some false
  | _ => none

/-! ## Pairing -/

theorem balancedFrom_replicate (d n : Nat) (bs : List Bool) :
    balancedFrom d (List.replicate n true ++ bs) = balancedFrom (d + n) bs := by
  induction n generalizing d with
  | zero => rfl
  | succ n ih =>
    simp only [List.replicate_succ, List.cons_append, balancedFrom, ih]
    congr 1
    omega

/-- Up to the first `)`, a list of brackets is a run of `(`. -/
theorem eq_replicate_of_findIdx? {bs : List Bool} {j : Nat} (h : bs.findIdx? (!·) = some j) :
    bs = List.replicate j true ++ false :: bs.drop (j + 1) := by
  induction bs generalizing j with
  | nil => simp at h
  | cons b bs ih =>
    cases b with
    | false =>
      simp [List.findIdx?_cons] at h
      subst h
      rfl
    | true =>
      simp only [List.findIdx?_cons, Bool.not_true, Bool.false_eq_true, ↓reduceIte,
        Option.map_eq_some_iff] at h
      obtain ⟨j', hj', rfl⟩ := h
      conv_lhs => rw [ih hj']
      simp [List.replicate_succ]

/-- A `)` before every `(`, or with none at all, is a bracket closed that is not open. -/
theorem balancedFrom_of_close_first {bs : List Bool} {j : Nat} (h : bs.findIdx? (!·) = some j)
    (hopen : ∀ i, bs.findIdx? id = some i → j < i) : balancedFrom 0 bs = false := by
  rw [eq_replicate_of_findIdx? h] at hopen ⊢
  cases j with
  | zero => rfl
  | succ j =>
    have := hopen 0 (by simp [List.replicate_succ, List.findIdx?_cons])
    omega

/-- Brackets that are all `(` are balanced only when there are none. -/
theorem balancedFrom_of_no_close {bs : List Bool} (h : bs.findIdx? (!·) = none) (hne : bs ≠ []) :
    balancedFrom 0 bs = false := by
  have hall : bs = List.replicate bs.length true := by
    refine List.eq_replicate_iff.2 ⟨rfl, fun b hb => ?_⟩
    simpa using List.findIdx?_eq_none_iff.1 h b hb
  have hlen : bs.length ≠ 0 := by simpa using hne
  rw [hall, ← List.append_nil (List.replicate _ _), balancedFrom_replicate]
  simpa [balancedFrom] using hlen

/-- Removing the first `(` and the first `)` after it keeps the balance. -/
theorem balancedFrom_eraseIdx {bs : List Bool} {i j : Nat} (hi : bs.findIdx? id = some i)
    (hj : bs.findIdx? (!·) = some j) (hij : ¬j < i) :
    i = 0 ∧ balancedFrom 0 ((bs.eraseIdx j).eraseIdx i) = balancedFrom 0 bs := by
  have hbs := eq_replicate_of_findIdx? hj
  cases j with
  | zero =>
    rw [hbs] at hi
    simp [List.findIdx?_cons] at hi
    omega
  | succ j =>
    have hi0 : i = 0 := by
      rw [hbs] at hi
      simpa [List.replicate_succ, List.findIdx?_cons] using hi.symm
    subst hi0
    refine ⟨rfl, ?_⟩
    rw [hbs, List.eraseIdx_append_of_length_le (by simp), List.length_replicate, Nat.sub_self,
      List.eraseIdx_zero, List.eraseIdx_zero, List.tail_cons, List.replicate_succ, List.cons_append,
      List.tail_cons, balancedFrom_replicate]
    simp [balancedFrom, balancedFrom_replicate, Nat.add_comm]

theorem findIdx?_map_snd (ms : List (Nat × Bool)) (p : Bool → Bool) :
    (ms.map (·.2)).findIdx? p = ms.findIdx? fun m => p m.2 :=
  List.findIdx?_map

/-- **The pairing check is balance.** -/
theorem pairMarks_eq_ok_iff (ms : List (Nat × Bool)) :
    pairMarks ms = .ok () ↔ balancedFrom 0 (ms.map (·.2)) = true := by
  fun_induction pairMarks ms with
  | case1 ms hOpen hClose =>
    have : ms = [] := by
      cases ms with
      | nil => rfl
      | cons m ms => cases hm : m.2 <;> simp_all [List.findIdx?_cons]
    simp [this, balancedFrom]
  | case2 ms i hOpen hClose =>
    have hne : ms.map (·.2) ≠ [] := by
      rintro h
      simp_all
    have hClose' : (ms.map (·.2)).findIdx? (!·) = none := by rw [findIdx?_map_snd]; exact hClose
    simp [balancedFrom_of_no_close hClose' hne]
  | case3 ms j hOpen hClose =>
    have hClose' : (ms.map (·.2)).findIdx? (!·) = some j := by
      rw [findIdx?_map_snd]; exact hClose
    have hOpen' : (ms.map (·.2)).findIdx? id = none := by rw [findIdx?_map_snd]; exact hOpen
    simp [balancedFrom_of_close_first hClose' fun i hi => by simp [hOpen'] at hi]
  | case4 ms i j hOpen hClose hji =>
    have hClose' : (ms.map (·.2)).findIdx? (!·) = some j := by
      rw [findIdx?_map_snd]; exact hClose
    have hOpen' : (ms.map (·.2)).findIdx? id = some i := by rw [findIdx?_map_snd]; exact hOpen
    simp [balancedFrom_of_close_first hClose' fun i' hi' => by simp_all]
  | case5 ms i j hOpen hClose hji hlen ih =>
    have hClose' : (ms.map (·.2)).findIdx? (!·) = some j := by
      rw [findIdx?_map_snd]; exact hClose
    have hOpen' : (ms.map (·.2)).findIdx? id = some i := by rw [findIdx?_map_snd]; exact hOpen
    obtain ⟨rfl, h⟩ := balancedFrom_eraseIdx hOpen' hClose' hji
    rw [ih, ← h, List.eraseIdx_map, List.eraseIdx_map]

theorem marksFrom_map (i : Nat) (cs : List Char) :
    (marksFrom i cs).map (·.2) = cs.filterMap charBracket? := by
  induction cs generalizing i with
  | nil => rfl
  | cons c cs ih =>
    by_cases h₁ : c = '(' <;> by_cases h₂ : c = ')' <;> simp_all [marksFrom, charBracket?]

theorem checkBrackets_eq_ok_iff (s : String) :
    checkBrackets s = .ok () ↔ balancedFrom 0 (s.toList.filterMap charBracket?) = true := by
  rw [checkBrackets, pairMarks_eq_ok_iff, bracketMarks, marksFrom_map]

/-! ## Brackets of the words -/

theorem mem_splitSlash {c : Char} {cs : List Char} (h : c ∈ cs) :
    c = '/' ∨ ∃ w ∈ splitSlash cs, c ∈ w := by
  induction cs with
  | nil => simp at h
  | cons c₀ cs ih =>
    by_cases hs : c₀ = '/'
    · rcases List.mem_cons.1 h with rfl | h
      · exact .inl hs
      · rcases ih h with h' | ⟨w, hw, hcw⟩
        · exact .inl h'
        · exact .inr ⟨w, by simp [splitSlash, hs, hw], hcw⟩
    · have hcons : ∃ w ws, splitSlash (c₀ :: cs) = (c₀ :: w) :: ws ∧
          splitSlash cs ⊆ w :: ws := by
        cases hsplit : splitSlash cs with
        | nil => exact ⟨[], [], by simp [splitSlash, hs, hsplit], by simp⟩
        | cons w ws => exact ⟨w, ws, by simp [splitSlash, hs, hsplit], by simp⟩
      obtain ⟨w, ws, heq, hsub⟩ := hcons
      rw [heq]
      rcases List.mem_cons.1 h with rfl | h
      · exact .inr ⟨_, List.mem_cons_self, List.mem_cons_self⟩
      · rcases ih h with h' | ⟨v, hv, hcv⟩
        · exact .inl h'
        · rcases List.mem_cons.1 (hsub hv) with rfl | hv'
          · exact .inr ⟨_, List.mem_cons_self, List.mem_cons_of_mem _ hcv⟩
          · exact .inr ⟨v, List.mem_cons_of_mem _ hv', hcv⟩

theorem charBracket?_of_isSegment {w : List Char} (hw : isSegment w = true) {c : Char}
    (hc : c ∈ w) : charBracket? c = none := by
  cases w with
  | nil => simp [isSegment] at hw
  | cons c₀ cs =>
    simp only [isSegment, Bool.and_eq_true, List.all_eq_true, Bool.not_eq_eq_eq_not,
      Bool.not_true] at hw
    rcases List.mem_cons.1 hc with rfl | hc
    · have h₁ : c ≠ '(' := by rintro rfl; simp [isSegmentStart] at hw
      have h₂ : c ≠ ')' := by rintro rfl; simp [isSegmentStart] at hw
      simp [charBracket?, h₁, h₂]
    · have h := hw.2 c hc
      have h₁ : c ≠ '(' := by rintro rfl; simp [isSegmentForbidden] at h
      have h₂ : c ≠ ')' := by rintro rfl; simp [isSegmentForbidden] at h
      simp [charBracket?, h₁, h₂]

/-- A path holds no bracket character. -/
theorem charBracket?_of_isAttribute {t : String} (ht : isAttribute t = true) {c : Char}
    (hc : c ∈ t.toList) : charBracket? c = none := by
  unfold isAttribute at ht
  split at ht
  · rename_i a b d e hsplit
    simp only [Bool.and_eq_true] at ht
    rcases mem_splitSlash hc with rfl | ⟨w, hw, hcw⟩
    · rfl
    · rw [hsplit] at hw
      simp only [List.mem_cons, List.not_mem_nil, or_false] at hw
      rcases hw with rfl | rfl | rfl | rfl
      · exact charBracket?_of_isSegment ht.1.1.1 hcw
      · exact charBracket?_of_isSegment ht.1.1.2 hcw
      · exact charBracket?_of_isSegment ht.1.2 hcw
      · exact charBracket?_of_isSegment ht.2 hcw
  · cases ht

/-- A number holds no bracket character. -/
theorem charBracket?_of_isNumber {t : String} (ht : isNumber t = true) {c : Char}
    (hc : c ∈ t.toList) : charBracket? c = none := by
  simp only [isNumber, Bool.and_eq_true, List.all_eq_true] at ht
  have h := ht.1.2 c hc
  have h₁ : c ≠ '(' := by rintro rfl; simp [isNumberChar] at h
  have h₂ : c ≠ ')' := by rintro rfl; simp [isNumberChar] at h
  simp [charBracket?, h₁, h₂]

theorem ofSymbol?_eq_some {t : String} {op : BinOp} (h : BinOp.ofSymbol? t = some op) :
    t = op.text := by
  unfold BinOp.ofSymbol? at h
  split at h <;> cases h <;> rfl

/-- The brackets of a body with a class: its own bracket when it is one, none otherwise. -/
theorem brackets_of_classify {t : String} {k : TokenKind} (h : classify t = some k) :
    t.toList.filterMap charBracket? = k.bracket?.toList := by
  have hnone :
      (∀ c ∈ t.toList, charBracket? c = none) → t.toList.filterMap charBracket? = [] :=
    List.filterMap_eq_nil_iff.2
  unfold classify at h
  split_ifs at h with h₁ h₂ h₃ h₄ h₅ <;> cases h
  · subst h₁; rfl
  · subst h₂; rfl
  · obtain ⟨op, hop⟩ : ∃ op, BinOp.ofSymbol? t = some op := by
      simpa [isOperator, Option.isSome_iff_exists] using h₃
    rw [ofSymbol?_eq_some hop]
    cases op <;> rfl
  · exact hnone fun c hc => charBracket?_of_isNumber h₄ hc
  · exact hnone fun c hc => charBracket?_of_isAttribute h₅ hc

theorem eq_peelFront (cs : List Char) {b : Bool} (hb : b = true → cs.head? = some '(') :
    cs = (if b then ['('] else []) ++ (if b then cs.drop 1 else cs) := by
  cases b with
  | false => rfl
  | true =>
    obtain ⟨ys, rfl⟩ := List.head?_eq_some_iff.1 (hb rfl)
    rfl

theorem eq_peelBack (cs : List Char) {b : Bool} (hb : b = true → cs.getLast? = some ')') :
    cs = (if b then cs.dropLast else cs) ++ (if b then [')'] else []) := by
  cases b with
  | false => simp
  | true =>
    obtain ⟨ys, rfl⟩ := List.getLast?_eq_some_iff.1 (hb rfl)
    simp

/-- A word is its peeled `(`, its body and its peeled `)`. -/
theorem peelBrackets_spec (cs : List Char) :
    cs = (if (peelBrackets cs).1 then ['('] else []) ++ (peelBrackets cs).2.1 ++
      (if (peelBrackets cs).2.2 then [')'] else []) := by
  set lead := decide (cs.length > 1) && cs.head? == some '(' with hlead
  set rest := if lead then cs.drop 1 else cs with hrest
  set trail := decide (rest.length > 1) && rest.getLast? == some ')' with htrail
  show cs = (if lead then ['('] else []) ++ (if trail then rest.dropLast else rest) ++
    (if trail then [')'] else [])
  rw [List.append_assoc, ← eq_peelBack rest fun h => by simp_all,
    hrest, ← eq_peelFront cs fun h => by simp_all]

theorem TokenKind.bracket?_of_kind? {b : Token} {k : TokenKind} (h : b.kind? = some k) :
    b.bracket? = k.bracket? := by
  cases b <;> cases h <;> rfl

theorem brackets_peeled (lead trail : Bool) {body : List Char} {b : Token}
    (hbody : body.filterMap charBracket? = b.bracket?.toList) :
    ((if lead then ['('] else []) ++ body ++ (if trail then [')'] else [])).filterMap charBracket? =
      ((if lead then [Token.lparen] else []) ++
        b :: (if trail then [Token.rparen] else [])).filterMap Token.bracket? := by
  cases lead <;> cases trail <;> cases hb : b.bracket? <;>
    simp_all [List.filterMap_append, charBracket?, Token.bracket?]

/-- In a word whose body has a class, the bracket characters are the bracket tokens. -/
theorem Word.brackets_ofText {text : String} (h : (Word.ofText text).kind.isSome) :
    text.toList.filterMap charBracket? = (Word.ofText text).tokenList.filterMap Token.bracket? := by
  obtain ⟨k, hk⟩ := Option.isSome_iff_exists.1 h
  obtain ⟨b, hts, hb, -⟩ := Word.tokenList_of_kind hk
  have hbody := brackets_of_classify (t := (Word.ofText text).body) hk
  rw [← TokenKind.bracket?_of_kind? hb] at hbody
  rw [hts]
  conv_lhs => rw [peelBrackets_spec text.toList]
  exact brackets_peeled _ _ (by simpa [Word.ofText] using hbody)

/-- The brackets of a text are those of its words. -/
theorem brackets_wordsOf (s : String) :
    s.toList.filterMap charBracket? =
      (wordsOf s).flatMap fun w => w.text.toList.filterMap charBracket? := by
  have hblank : ∀ c, charBracket? c ≠ none → (!isBlank c) = true := by
    intro c hc
    by_cases h₁ : c = '(' <;> by_cases h₂ : c = ')' <;> simp_all [charBracket?, isBlank]
  calc s.toList.filterMap charBracket?
      = (s.toList.filter (!isBlank ·)).filterMap charBracket? := by
        rw [List.filterMap_filter]
        congr 1
        funext c
        by_cases hc : charBracket? c = none
        · simp [hc]
        · simp [hblank c hc]
    _ = (splitWords s.toList).flatten.filterMap charBracket? := by rw [flatten_splitWords]
    _ = (wordsOf s).flatMap fun w => w.text.toList.filterMap charBracket? := by
        simp [List.filterMap_flatten, wordsOf, words, Word.ofText, List.flatMap_def,
          Function.comp_def]

/-- For an expression with no malformed word, the bracket characters of the text are the
bracket tokens of its stream. -/
theorem brackets_lex {s : String} (h : ∀ w ∈ wordsOf s, w.kind.isSome) :
    s.toList.filterMap charBracket? = (lex s).tokens.filterMap Token.bracket? := by
  rw [brackets_wordsOf, lex, lexWords_tokens h, List.filterMap_flatMap, List.flatMap_def,
    List.flatMap_def]
  congr 1
  apply List.map_congr_left
  intro w hw
  obtain ⟨t, -, rfl⟩ := List.mem_map.1 hw
  exact Word.brackets_ofText (h _ hw)

/-- One step of the scanner moves its depth as the token's bracket moves the count. -/
theorem Scanner.balancedFrom_step {s s' : Scanner} {t : Token} (h : s.step t = some s')
    (bs : List Bool) :
    balancedFrom s.depth (t.bracket?.toList ++ bs) = balancedFrom s'.depth bs := by
  obtain ⟨q, d⟩ := s
  cases q <;> cases t <;> cases d <;> simp [Scanner.step] at h <;> subst h <;>
    simp [balancedFrom, Token.bracket?]

/-- The scanner's depth counts the open brackets. -/
theorem Scanner.balancedFrom_run {s s' : Scanner} {ts : List Token} (h : s.run ts = some s')
    (bs : List Bool) :
    balancedFrom s.depth (ts.filterMap Token.bracket? ++ bs) = balancedFrom s'.depth bs := by
  induction ts generalizing s with
  | nil =>
    simp only [Scanner.run_nil, Option.some.injEq] at h
    simp [h]
  | cons t ts ih =>
    rw [Scanner.run_cons] at h
    obtain ⟨s₁, hstep, hrest⟩ := Option.bind_eq_some_iff.1 h
    calc balancedFrom s.depth ((t :: ts).filterMap Token.bracket? ++ bs)
        = balancedFrom s.depth (t.bracket?.toList ++ (ts.filterMap Token.bracket? ++ bs)) := by
          cases hb : t.bracket? <;> simp [hb]
      _ = balancedFrom s₁.depth (ts.filterMap Token.bracket? ++ bs) :=
          Scanner.balancedFrom_step hstep _
      _ = balancedFrom s'.depth bs := ih hrest

end AttrExpr
