import AttrExpr.Proofs.Render

/-!
# The lexer as a machine

`Lexer.nextToken` reads one word at a time and keeps the rest of a word's tokens waiting in a
queue. Call after call it gives, word by word: the error of a malformed word, or else a peeled
`(`, the body's token and a peeled `)` (`Word.answers`); once the words run out, `eof` at every
call. The queue never holds more than two tokens, none of them `eof`, and a word is read only
when the queue is empty.

The proof follows the answers still to come (`Lexer.rest`): the waiting tokens, then the answers
of the words left. Each call gives the first of them and leaves the others (`nextToken_rest`),
so `n` calls give the first `n`, then `eof`.

Collecting the tokens up to `eof` is therefore the tokens of the words one after the other, or
the error of the first malformed word; and a text whose words are written as their parts, `(`,
body and `)` each a word of its own, has the same tokens.

## Main definitions

* `Word.answers` — what the calls give for one word
* `Lexer.calls`, `Lexer.after` — the answers of `n` calls, and the lexer after them
* `Lexer.rest` — the answers still to come
* `Lexer.Valid` — what holds of the queue between calls
* `AttrExpr.peeledText` — a text with each word written as its parts

## Main results

* `Lexer.nextToken_rest` — one call gives the first answer still to come
* `Lexer.calls_eq` — `n` calls give the first `n` answers, then `eof`
* `Lexer.tokenize_eq_mapM` — collecting the tokens is sequencing the answers
* `Lexer.tokenize_new` — the machine collects the token stream `lex` that the parser reads
* `Lexer.tokenize_peeledText` — writing each word as its parts leaves the tokens as they are
* `AttrExpr.lexer_wordByWord` — all of it for the lexer of a text
* `AttrExpr.lexer_text_brackets` — the lexer's bracket tokens are the text's brackets
-/

namespace AttrExpr

namespace Word

/-- What the calls give for one word: the error of a malformed word, or a peeled `(`, the body's
token and a peeled `)`. -/
def answers (w : Word) : List (Except ParseError Token) :=
  match w.kind with
  | none => [.error (.malformedToken w.text)]
  | some _ => (if w.leadingParen then [.ok .lparen] else []) ++
      w.bodyToken :: (if w.trailingParen then [.ok .rparen] else [])

/-- A word written as its parts: a peeled `(`, the body and a peeled `)`. -/
def parts (w : Word) : List String :=
  (if w.leadingParen then ["("] else []) ++ w.body :: (if w.trailingParen then [")"] else [])

theorem bodyToken_of_kind_eq_none {w : Word} (h : w.kind = none) :
    w.bodyToken = .error (.malformedToken w.text) := by
  simp [bodyToken, h]

/-- For a word with a class, the answers are its tokens. -/
theorem answers_of_kind {w : Word} {k : TokenKind} (h : w.kind = some k) :
    w.answers = w.tokenList.map .ok := by
  obtain ⟨b, hb, -⟩ := bodyToken_of_kind h
  simp only [answers, h, hb, tokenList, tokens]
  cases w.leadingParen <;> cases w.trailingParen <;> rfl

/-- No word answers `eof`. -/
theorem eof_not_mem_answers (w : Word) : .ok .eof ∉ w.answers := by
  cases hk : w.kind with
  | none => simp [answers, hk]
  | some k =>
    rw [answers_of_kind hk]
    simpa using eof_not_mem_tokenList w

/-- What the class of a body says of it. -/
theorem classify_eq_some {t : String} {k : TokenKind} (h : classify t = some k) :
    match k with
    | .lparen => t = "("
    | .rparen => t = ")"
    | .operator => isOperator t = true
    | .number => isNumber t = true
    | .attribute => isAttribute t = true := by
  unfold classify at h
  cases k <;> split_ifs at h <;> simp_all

/-- The body's token is written as the body. -/
theorem display_of_bodyToken {w : Word} {b : Token} (h : w.bodyToken = .ok b) :
    b.display = w.body := by
  unfold bodyToken at h
  split at h
  · cases h
    rfl
  · cases h
    rfl
  · split at h
    · cases h
      exact (ofSymbol?_eq_some ‹_›).symm
    · cases h
  · cases h
    exact Eq.symm (classify_eq_some (k := .lparen) ‹_›)
  · cases h
    exact Eq.symm (classify_eq_some (k := .rparen) ‹_›)
  · cases h

/-- The body's token can be written back, when the body has no blank. -/
theorem writable_of_bodyToken {w : Word} {b : Token} (h : w.bodyToken = .ok b)
    (hblank : ∀ c ∈ w.body.toList, isBlank c = false) : b.writable = true := by
  unfold bodyToken at h
  split at h
  · cases h
    exact classify_eq_some (k := .number) ‹_›
  · cases h
    simpa [Token.writable, classify_eq_some (k := .attribute) ‹_›] using hblank
  · split at h
    · cases h
      rfl
    · cases h
  · cases h
    rfl
  · cases h
    rfl
  · cases h

/-- For a word with a class, the parts are its tokens written out. -/
theorem parts_of_kind {w : Word} {k : TokenKind} (h : w.kind = some k) :
    w.parts = w.tokenList.map Token.display := by
  obtain ⟨b, hb, -⟩ := bodyToken_of_kind h
  simp only [parts, tokenList, tokens, hb]
  have hl : Token.lparen.display = "(" := rfl
  have hr : Token.rparen.display = ")" := rfl
  cases w.leadingParen <;> cases w.trailingParen <;> simp [display_of_bodyToken hb, hl, hr]

/-- The tokens of a word with a class and no blank can be written back. -/
theorem writable_of_kind {w : Word} {k : TokenKind} (h : w.kind = some k)
    (hblank : ∀ c ∈ w.body.toList, isBlank c = false) : ∀ t ∈ w.tokenList, t.writable = true := by
  obtain ⟨b, hb, -⟩ := bodyToken_of_kind h
  have hwb := writable_of_bodyToken hb hblank
  simp only [tokenList, tokens, hb]
  have hl : Token.lparen.writable = true := rfl
  have hr : Token.rparen.writable = true := rfl
  cases w.leadingParen <;> cases w.trailingParen <;> simp [hwb, hl, hr]

/-- The body of a word without blanks has none. -/
theorem body_ofText_not_blank {text : String} (h : ∀ c ∈ text.toList, isBlank c = false) :
    ∀ c ∈ (Word.ofText text).body.toList, isBlank c = false := by
  intro c hc
  apply h
  rw [peelBrackets_spec text.toList]
  simp only [Word.ofText, String.toList_ofList] at hc
  simp [hc]

/-- A token written out is a word whose only token is that token. -/
theorem tokenList_ofText_display {t : Token} (ht : t.writable = true) :
    (Word.ofText t.display).kind.isSome ∧ (Word.ofText t.display).tokenList = [t] := by
  have htok := tokens_ofText_display ht
  refine ⟨?_, by simp [tokenList, htok]⟩
  cases hk : (Word.ofText t.display).kind with
  | none => simp [tokens_of_kind_eq_none hk] at htok
  | some k => rfl

end Word

namespace Lexer

theorem nextToken_cons (ws : List String) (t : Token) (pending : List Token) :
    Lexer.nextToken ⟨ws, t :: pending⟩ = (.ok t, ⟨ws, pending⟩) := rfl

theorem nextToken_read (text : String) (ws : List String) :
    Lexer.nextToken ⟨text :: ws, []⟩ = readWord (Word.ofText text) ws := rfl

/-- The answers of `n` calls, in order. -/
def calls : Nat → Lexer → List (Except ParseError Token)
  | 0, _ => []
  | n + 1, lx => lx.nextToken.1 :: calls n lx.nextToken.2

/-- The lexer after `n` calls. -/
def after : Nat → Lexer → Lexer
  | 0, lx => lx
  | n + 1, lx => (after n lx).nextToken.2

/-- The answers still to come: the waiting tokens, then those of the words left. -/
def rest (lx : Lexer) : List (Except ParseError Token) :=
  lx.pending.map .ok ++ (lx.words.map Word.ofText).flatMap Word.answers

theorem rest_new (s : String) : (Lexer.new s).rest = (wordsOf s).flatMap Word.answers := by
  simp [rest, Lexer.new, wordsOf]

/-- Reading a word gives its first answer and leaves the others waiting. -/
theorem readWord_rest (w : Word) (ws : List String) :
    (readWord w ws).1 :: (readWord w ws).2.rest =
      w.answers ++ (ws.map Word.ofText).flatMap Word.answers := by
  cases hk : w.kind with
  | none => simp [readWord, Word.bodyToken_of_kind_eq_none hk, rest, Word.answers, hk]
  | some k =>
    obtain ⟨b, hb, -⟩ := Word.bodyToken_of_kind hk
    simp only [readWord, hb, Word.answers, hk]
    cases w.leadingParen <;> cases w.trailingParen <;> simp [rest]

/-- **One call gives the first answer still to come**, or `eof` when none is left. -/
theorem nextToken_rest (lx : Lexer) :
    (lx.rest = [] ∧ lx.nextToken = (.ok .eof, lx)) ∨
      lx.rest = lx.nextToken.1 :: lx.nextToken.2.rest := by
  obtain ⟨ws, pending⟩ := lx
  cases pending with
  | cons t pending => exact .inr (by simp [rest, nextToken_cons])
  | nil =>
    cases ws with
    | nil => exact .inl ⟨by simp [rest], rfl⟩
    | cons text ws =>
      refine .inr ?_
      rw [nextToken_read, readWord_rest]
      simp [rest]

/-- **`n` calls give the first `n` answers still to come, then `eof`.** -/
theorem calls_eq (n : Nat) (lx : Lexer) :
    lx.calls n = lx.rest.take n ++ List.replicate (n - lx.rest.length) (.ok .eof) := by
  induction n generalizing lx with
  | zero => simp [calls]
  | succ n ih =>
    rw [calls, ih]
    rcases nextToken_rest lx with ⟨hnil, hnext⟩ | hcons
    · -- nothing is left: `eof`, and the lexer stays as it is
      rw [hnext, hnil]
      simp [List.replicate_succ]
    · rw [hcons]
      simp

example : (Lexer.new "(2) ((2").calls 6 =
    [.ok .lparen, .ok (.number "2"), .ok .rparen, .error (.malformedToken "((2"), .ok .eof,
      .ok .eof] := by
  decide

/-- What holds of the queue between calls: at most two tokens wait, none of them `eof`. -/
structure Valid (lx : Lexer) : Prop where
  pending_length : lx.pending.length ≤ 2
  eof_not_mem : .eof ∉ lx.pending

theorem valid_new (s : String) : (Lexer.new s).Valid := ⟨by simp [Lexer.new], by simp [Lexer.new]⟩

/-- A call keeps the queue valid. -/
theorem Valid.nextToken {lx : Lexer} (h : lx.Valid) : lx.nextToken.2.Valid := by
  obtain ⟨ws, pending⟩ := lx
  cases pending with
  | cons t pending =>
    obtain ⟨hlen, heof⟩ := h
    rw [nextToken_cons]
    refine ⟨?_, fun hmem => heof (List.mem_cons_of_mem _ hmem)⟩
    show pending.length ≤ 2
    simp only [List.length_cons] at hlen
    omega
  | nil =>
    cases ws with
    | nil => exact h
    | cons text ws =>
      rw [nextToken_read]
      refine ⟨(@readWord_spec (Word.ofText text) ws).2, fun hmem => ?_⟩
      -- a waiting token is an answer still to come, and no word answers `eof`
      have hrest : Except.ok Token.eof ∈ (readWord (Word.ofText text) ws).2.rest :=
        List.mem_append_left _ (List.mem_map_of_mem hmem)
      have hmem' : Except.ok Token.eof ∈
          (Word.ofText text).answers ++ (ws.map Word.ofText).flatMap Word.answers := by
        rw [← readWord_rest]
        exact List.mem_cons_of_mem _ hrest
      simp only [List.mem_append, List.mem_flatMap] at hmem'
      rcases hmem' with h | ⟨w, -, h⟩
      · exact Word.eof_not_mem_answers _ h
      · exact Word.eof_not_mem_answers _ h

/-- A call reads a word only when nothing waits: else it gives the first waiting token, or `eof`
at the end, and the words stay as they are. -/
theorem pending_eq_nil_of_read {lx : Lexer} (h : lx.nextToken.2.words ≠ lx.words) :
    lx.pending = [] := by
  obtain ⟨ws, pending⟩ := lx
  cases pending with
  | cons t pending => exact absurd rfl h
  | nil => rfl

theorem Valid.after {lx : Lexer} (h : lx.Valid) (n : Nat) : (lx.after n).Valid := by
  induction n with
  | zero => exact h
  | succ n ih => exact ih.nextToken

theorem eof_not_mem_rest {lx : Lexer} (h : lx.Valid) : .ok .eof ∉ lx.rest := by
  simp only [rest, List.mem_append, List.mem_map, List.mem_flatMap, not_or]
  refine ⟨fun ⟨t, ht, heq⟩ => ?_, fun ⟨w, _, hw⟩ => Word.eof_not_mem_answers w hw⟩
  cases heq
  exact h.eof_not_mem ht

theorem mapM_cons_ok (t : Token) (l : List (Except ParseError Token)) :
    (Except.ok t :: l).mapM id = (l.mapM id).map (t :: ·) := by
  simp [List.mapM_cons, bind, Except.bind, pure, Except.pure, Except.map]

theorem mapM_cons_error (e : ParseError) (l : List (Except ParseError Token)) :
    (Except.error e :: l).mapM id = .error e := by
  simp [List.mapM_cons, bind, Except.bind]

/-- **Collecting the tokens up to `eof` sequences the answers still to come**: all their tokens,
or the first error. -/
theorem tokenize_eq_mapM {lx : Lexer} (h : lx.Valid) : lx.tokenize = lx.rest.mapM id := by
  fun_induction tokenize lx with
  | case1 lx e lx' hnext =>
    rcases nextToken_rest lx with ⟨-, heof⟩ | hcons
    · rw [heof] at hnext
      cases hnext
    · rw [hcons, hnext, mapM_cons_error]
  | case2 lx lx' hnext =>
    -- `eof` comes only when nothing is left, as no answer still to come is `eof`
    rcases nextToken_rest lx with ⟨hnil, -⟩ | hcons
    · rw [hnil]
      rfl
    · rw [hnext] at hcons
      exact absurd (hcons ▸ List.mem_cons_self) (eof_not_mem_rest h)
  | case3 lx t lx' hnext ht _ ih =>
    rcases nextToken_rest lx with ⟨-, heof⟩ | hcons
    · rw [heof] at hnext
      cases hnext
      exact absurd rfl ht
    · have hvalid : lx'.Valid := by
        simpa [hnext] using h.nextToken
      rw [hcons, hnext, mapM_cons_ok, ih hvalid]

end Lexer

/-! ## Collecting the tokens -/

theorem mapM_map_ok_append (ts : List Token) (l : List (Except ParseError Token)) :
    (ts.map Except.ok ++ l).mapM id = (l.mapM id).map (ts ++ ·) := by
  induction ts with
  | nil =>
    rw [List.map_nil, List.nil_append]
    cases l.mapM id <;> rfl
  | cons t ts ih =>
    rw [List.map_cons, List.cons_append, Lexer.mapM_cons_ok, ih]
    cases l.mapM id <;> rfl

/-- Sequencing the answers of words gives their tokens one after the other, or the error of the
first malformed word. -/
theorem mapM_flatMap_answers (ws : List Word) :
    (ws.flatMap Word.answers).mapM id =
      match ws.find? (fun w => w.kind.isNone) with
      | some w => .error (.malformedToken w.text)
      | none => .ok (ws.flatMap Word.tokenList) := by
  induction ws with
  | nil => rfl
  | cons w ws ih =>
    cases hk : w.kind with
    | none =>
      rw [List.flatMap_cons]
      simp only [Word.answers, hk, List.singleton_append, Lexer.mapM_cons_error]
      simp [hk]
    | some k =>
      rw [List.flatMap_cons, Word.answers_of_kind hk, mapM_map_ok_append, ih]
      simp only [List.find?_cons, hk, Option.isNone_some, List.flatMap_cons]
      cases ws.find? (fun w => w.kind.isNone) <;> rfl

/-- Sequencing the answers of words is collecting their token stream. -/
theorem mapM_flatMap_answers_eq_lexWords (ws : List Word) :
    (ws.flatMap Word.answers).mapM id = (lexWords ws).tokenize := by
  induction ws with
  | nil => rfl
  | cons w ws ih =>
    cases hk : w.kind with
    | none =>
      rw [List.flatMap_cons]
      simp only [Word.answers, hk, List.singleton_append, Lexer.mapM_cons_error]
      simp [lexWords, Word.tokens_of_kind_eq_none hk, Lexed.tokenize]
    | some k =>
      rw [List.flatMap_cons, Word.answers_of_kind hk, mapM_map_ok_append, ih]
      simp only [lexWords, Word.tokens_eq_ok (Option.isSome_iff_exists.2 ⟨k, hk⟩), Lexed.tokenize]
      cases (lexWords ws).stop <;> rfl

/-- **The machine collects the token stream of the text**, which the parser reads. -/
theorem Lexer.tokenize_new (s : String) : (Lexer.new s).tokenize = (lex s).tokenize := by
  rw [Lexer.tokenize_eq_mapM (Lexer.valid_new s), Lexer.rest_new, mapM_flatMap_answers_eq_lexWords]
  rfl

/-! ## Writing each word as its parts -/

/-- A text with each word written as its parts: a peeled `(`, the body and a peeled `)`, each a
word of its own. -/
def peeledText (s : String) : String := " ".intercalate ((wordsOf s).flatMap Word.parts)

theorem not_blank_of_mem_words {s w : String} (hw : w ∈ words s) :
    ∀ c ∈ w.toList, isBlank c = false := by
  obtain ⟨cs, hcs, rfl⟩ := List.mem_map.1 hw
  simpa using (mem_splitWords hcs).2

/-- Once every word has a class, the tokens of the words can be written back. -/
theorem writable_of_wordsOf {s : String} (h : ∀ w ∈ wordsOf s, w.kind.isSome) :
    ∀ t ∈ (wordsOf s).flatMap Word.tokenList, t.writable = true := by
  simp only [List.mem_flatMap]
  rintro t ⟨w, hw, ht⟩
  obtain ⟨text, htext, rfl⟩ := List.mem_map.1 hw
  obtain ⟨k, hk⟩ := Option.isSome_iff_exists.1 (h _ hw)
  exact Word.writable_of_kind hk (Word.body_ofText_not_blank (not_blank_of_mem_words htext)) t ht

/-- Once every word has a class, the text with each word written as its parts is the rendering
of the tokens. -/
theorem peeledText_eq_render {s : String} (h : ∀ w ∈ wordsOf s, w.kind.isSome) :
    peeledText s = render ((wordsOf s).flatMap Word.tokenList) := by
  rw [peeledText, render, List.map_flatMap, List.flatMap_def, List.flatMap_def,
    List.map_congr_left fun w hw => ?_]
  obtain ⟨k, hk⟩ := Option.isSome_iff_exists.1 (h w hw)
  exact Word.parts_of_kind hk

/-- **Writing each word as its parts leaves the tokens as they are.** -/
theorem Lexer.tokenize_peeledText {s : String} {ts : List Token}
    (h : (Lexer.new s).tokenize = .ok ts) : (Lexer.new (peeledText s)).tokenize = .ok ts := by
  rw [Lexer.tokenize_new] at h ⊢
  obtain ⟨hstop, rfl⟩ := Lexed.tokenize_eq_ok_iff.1 h
  have hk : ∀ w ∈ wordsOf s, w.kind.isSome := (lexWords_stop _).1 hstop
  have htokens : (lex s).tokens = (wordsOf s).flatMap Word.tokenList := lexWords_tokens hk
  rw [peeledText_eq_render hk, lex_render (writable_of_wordsOf hk), htokens]
  rfl

/-- **The lexer gives its tokens word by word.** The calls on the lexer of a text give, word by
word, the error of a malformed word or else a peeled `(`, the body's token and a peeled `)`, and
then `eof` at every call. Between calls at most two tokens wait, and a word is read only when none
does; a word with a class always has a body token. Collecting the tokens gives those of the words
one after the other, or the error of the first malformed word, and writing each word as its parts
leaves them as they are. -/
theorem lexer_wordByWord (s : String) :
    (∀ n, (Lexer.new s).calls n = ((wordsOf s).flatMap Word.answers).take n ++
        List.replicate (n - ((wordsOf s).flatMap Word.answers).length) (.ok .eof)) ∧
    (∀ n, ((Lexer.new s).after n).pending.length ≤ 2 ∧
      (((Lexer.new s).after (n + 1)).words ≠ ((Lexer.new s).after n).words →
        ((Lexer.new s).after n).pending = [])) ∧
    (∀ w : Word, w.kind.isSome → ∃ b, w.bodyToken = .ok b) ∧
    (Lexer.new s).tokenize =
      (match (wordsOf s).find? (fun w => w.kind.isNone) with
        | some w => .error (.malformedToken w.text)
        | none => .ok ((wordsOf s).flatMap Word.tokenList)) ∧
    ∀ ts, (Lexer.new s).tokenize = .ok ts → (Lexer.new (peeledText s)).tokenize = .ok ts := by
  refine ⟨fun n => ?_, fun n => ⟨((Lexer.valid_new s).after n).pending_length,
    Lexer.pending_eq_nil_of_read⟩, fun w hw => ?_, ?_, fun ts => Lexer.tokenize_peeledText⟩
  · rw [Lexer.calls_eq, Lexer.rest_new]
  · obtain ⟨k, hk⟩ := Option.isSome_iff_exists.1 hw
    obtain ⟨b, hb, -⟩ := Word.bodyToken_of_kind hk
    exact ⟨b, hb⟩
  · rw [Lexer.tokenize_eq_mapM (Lexer.valid_new s), Lexer.rest_new, mapM_flatMap_answers]

/-! ## The brackets the lexer sees -/

/-- A word is its peeled `(`, its body and its peeled `)`. -/
theorem Word.text_ofText (text : String) :
    (Word.ofText text).text.toList =
      (if (Word.ofText text).leadingParen then ['('] else []) ++ (Word.ofText text).body.toList ++
        (if (Word.ofText text).trailingParen then [')'] else []) := by
  have hspec := peelBrackets_spec text.toList
  simp only [Word.ofText, String.toList_ofList]
  exact hspec

/-- A body with a class holds a bracket only when it is one. -/
theorem eq_bracket_of_classify {t : String} {k : TokenKind} (h : classify t = some k) {c : Char}
    (hc : c ∈ t.toList) (hb : charBracket? c ≠ none) : t = "(" ∨ t = ")" := by
  obtain ⟨b, hcb⟩ := Option.ne_none_iff_exists'.1 hb
  -- the body's brackets are those of its class, and only the two bracket classes have one
  have hmem : b ∈ k.bracket?.toList := by
    rw [← brackets_of_classify h]
    exact List.mem_filterMap.2 ⟨c, hc, hcb⟩
  have hk := Word.classify_eq_some h
  cases k with
  | lparen => exact .inl hk
  | rparen => exact .inr hk
  | _ => simp [TokenKind.bracket?] at hmem

/-- **The lexer sees the brackets of the text.** When every word of a text has a class, each word
is at most one peeled `(`, its body and at most one peeled `)`, and a body holds a bracket only
when it is one; so the lexer collects its tokens, and their brackets are those of the text, in
order. -/
theorem lexer_text_brackets {s : String} (h : ∀ w ∈ wordsOf s, w.kind.isSome) :
    (∀ w ∈ wordsOf s, w.text.toList = (if w.leadingParen then ['('] else []) ++ w.body.toList ++
        (if w.trailingParen then [')'] else []) ∧
      ∀ c ∈ w.body.toList, charBracket? c ≠ none → w.body = "(" ∨ w.body = ")") ∧
    ∃ ts, (Lexer.new s).tokenize = .ok ts ∧
      s.toList.filterMap charBracket? = ts.filterMap Token.bracket? := by
  refine ⟨fun w hw => ?_, (lex s).tokens, ?_, brackets_lex h⟩
  · obtain ⟨text, -, rfl⟩ := List.mem_map.1 hw
    obtain ⟨k, hk⟩ := Option.isSome_iff_exists.1 (h _ hw)
    exact ⟨Word.text_ofText text, fun c hc hb => eq_bracket_of_classify hk hc hb⟩
  · rw [Lexer.tokenize_new, Lexed.tokenize_eq_ok_iff, lex, lexWords_stop]
    exact ⟨h, rfl⟩

theorem lexer_brackets_grouped_sum :
    ∃ ts, (Lexer.new "(a/b/c/d + 1) * 2").tokenize = .ok ts ∧
      "(a/b/c/d + 1) * 2".toList.filterMap charBracket? = ts.filterMap Token.bracket? :=
  (lexer_text_brackets (s := "(a/b/c/d + 1) * 2") (by decide)).2

end AttrExpr
