/-!
# Blank characters and words

A character is *blank* when it has the Unicode White_Space property: the controls from tab to
carriage return, the space, next line, no-break space, ogham space mark, the spaces from en quad
to hair space, the line and paragraph separators, narrow no-break space, medium mathematical
space and ideographic space. Zero width space and the byte order mark are not blank.

An expression is read as a list of *words*: the maximal runs of characters that are not blank.
Blanks at either end, or several blanks in a row, give no empty word.

## Main definitions

* `AttrExpr.isBlank` — the White_Space table
* `AttrExpr.splitWords`, `AttrExpr.words` — the words of a character list, of a string

## Main results

* `AttrExpr.isBlank_of_isWhitespace` — every character that core calls whitespace is blank
* `AttrExpr.mem_splitWords` — a word is never empty and holds no blank character
-/

namespace AttrExpr

/-- The code points with the Unicode White_Space property. -/
def isBlank (c : Char) : Bool :=
  let n := c.toNat
  (0x09 ≤ n && n ≤ 0x0D) || n == 0x20 || n == 0x85 || n == 0xA0 || n == 0x1680 ||
    (0x2000 ≤ n && n ≤ 0x200A) || n == 0x2028 || n == 0x2029 || n == 0x202F ||
    n == 0x205F || n == 0x3000

theorem isBlank_of_isWhitespace (c : Char) (h : c.isWhitespace = true) : isBlank c = true := by
  simp only [Char.isWhitespace, Bool.or_eq_true, decide_eq_true_eq] at h
  simp only [isBlank, Bool.or_eq_true, Bool.and_eq_true, decide_eq_true_eq, beq_iff_eq]
  rcases h with ((h | h) | h) | h <;> subst h <;> decide

example : isBlank '　' = true ∧ isBlank ' ' = true ∧ isBlank '​' = false ∧
    isBlank '﻿' = false := by decide

/-- Splits characters into words, `word` holding the current word reversed. -/
def splitWordsFrom : List Char → List Char → List (List Char)
  | [], word => if word.isEmpty then [] else [word.reverse]
  | c :: cs, word =>
    if isBlank c then
      if word.isEmpty then splitWordsFrom cs [] else word.reverse :: splitWordsFrom cs []
    else splitWordsFrom cs (c :: word)

/-- The maximal runs of non-blank characters, in order. -/
def splitWords (cs : List Char) : List (List Char) := splitWordsFrom cs []

/-- The words of a string. -/
def words (s : String) : List String := (splitWords s.toList).map String.ofList

theorem mem_splitWordsFrom (cs word : List Char) (hword : ∀ c ∈ word, isBlank c = false) :
    ∀ w ∈ splitWordsFrom cs word, w ≠ [] ∧ ∀ c ∈ w, isBlank c = false := by
  induction cs generalizing word with
  | nil =>
    intro w hw
    unfold splitWordsFrom at hw
    split at hw
    · simp at hw
    · obtain rfl := List.mem_singleton.1 hw
      exact ⟨by simp_all, by simpa using hword⟩
  | cons c cs ih =>
    intro w hw
    unfold splitWordsFrom at hw
    split at hw
    · split at hw
      · exact ih [] (by simp) w hw
      · rcases List.mem_cons.1 hw with rfl | hw
        · exact ⟨by simp_all, by simpa using hword⟩
        · exact ih [] (by simp) w hw
    · refine ih (c :: word) ?_ w hw
      intro d hd
      rcases List.mem_cons.1 hd with rfl | hd
      · simp_all
      · exact hword d hd

theorem mem_splitWords {cs w : List Char} (hw : w ∈ splitWords cs) :
    w ≠ [] ∧ ∀ c ∈ w, isBlank c = false :=
  mem_splitWordsFrom cs [] (by simp) w hw

end AttrExpr
