import AttrExpr.Text.Blank

/-!
# Words are the pieces between blanks

`AttrExpr.splitWords` walks the characters once, keeping the word it is reading reversed.
Cutting the text at every blank character (`List.splitOnP`) gives the same words, once the
empty pieces that blanks at either end or in a row leave are dropped.

The pieces are what reading a written tree back needs: words joined by single spaces come apart
into those words again (`words_intercalate`, behind the rendering theorem). Put back together,
the words are the text without its blanks, which is where the bracket check and the lexer meet
(`brackets_wordsOf`).

## Main results

* `AttrExpr.splitWordsFrom_eq_filter` — the walk from any partial word
* `AttrExpr.words_eq_pieces` — the words of a string are its non-empty pieces between blanks
* `AttrExpr.flatten_splitWords` — put back together, the words are the text without its blanks
-/

namespace AttrExpr

theorem splitWordsFrom_eq_filter (cs word : List Char) :
    splitWordsFrom cs word =
      (List.splitOnPPrepend isBlank cs word).filter fun w => !w.isEmpty := by
  induction cs generalizing word with
  | nil =>
    cases word <;> simp [splitWordsFrom]
  | cons c cs ih =>
    by_cases hc : isBlank c = true
    · rw [List.splitOnPPrepend_cons_pos hc]
      cases word <;> simp [splitWordsFrom, hc, ih]
    · have hc' : isBlank c = false := by simpa using hc
      rw [List.splitOnPPrepend_cons_neg hc']
      simp [splitWordsFrom, hc', ih]

theorem words_eq_pieces (s : String) :
    words s = ((s.toList.splitOnP isBlank).filter fun w => !w.isEmpty).map String.ofList := by
  rw [words, splitWords, splitWordsFrom_eq_filter, List.splitOnP_eq_splitOnPPrepend]

theorem flatten_splitWordsFrom (cs word : List Char) :
    (splitWordsFrom cs word).flatten = word.reverse ++ cs.filter (!isBlank ·) := by
  induction cs generalizing word with
  | nil => cases word <;> simp [splitWordsFrom]
  | cons c cs ih =>
    by_cases hc : isBlank c = true
    · cases word <;> simp [splitWordsFrom, hc, ih]
    · simp [splitWordsFrom, hc, ih]

theorem flatten_splitWords (cs : List Char) :
    (splitWords cs).flatten = cs.filter (!isBlank ·) := by
  simpa [splitWords] using flatten_splitWordsFrom cs []

end AttrExpr
