import AttrExpr.Syntax.Word

/-!
# Checking an expression before building its tree

Two checks run on the text.

*Alternation*: reading the words from the left, an operand is due first; an operand where an
operator is due, or an operator where an operand is due, is an error. After a word whose body
is `(` an operand is due, after `)` an operator, and after any other word the other of the two.
The last word must not be an operator, and there must be a word.

*Brackets*: the first `(` is paired with the first `)` as long as it comes before it; the
pair is removed and the pairing goes on. A `)` that comes before every remaining `(` is
unbalanced, and so is a `(` left over. Positions are character offsets in the whole text.

`validate` runs the alternation check first. A malformed word or an empty text is reported at
once; an alternation error gives way to a bracket error, if the text has one.

## Main definitions

* `AttrExpr.checkTokens` — the alternation check
* `AttrExpr.bracketMarks`, `AttrExpr.pairMarks`, `AttrExpr.checkBrackets` — the bracket check
* `AttrExpr.validate` — both, in order
-/

namespace AttrExpr

/-- The alternation check over words; `expectOperand` tells what is due, `last` is the previous
word with its class. -/
def checkWords : List Word → Bool → Option (Word × TokenKind) → Except ParseError Unit
  | [], _, none => .error .emptyExpression
  | [], _, some (w, k) => if k = .operator then .error (.trailingOperator w.text) else .ok ()
  | w :: ws, expectOperand, _ =>
    match w.kind with
    | none => .error (.malformedToken w.text)
    | some k =>
      if k.isOperand && !expectOperand then .error (.unexpectedOperand w.text)
      else if k = .operator && expectOperand then .error (.unexpectedOperator w.text)
      else
        let next := match k with
          | .lparen => true
          | .rparen => false
          | _ => !expectOperand
        checkWords ws next (some (w, k))

/-- Operands and operators alternate, starting and ending with an operand. -/
def checkTokens (s : String) : Except ParseError Unit := checkWords (wordsOf s) true none

/-- The brackets of a character list from offset `i` on: offset, and whether it opens. -/
def marksFrom : Nat → List Char → List (Nat × Bool)
  | _, [] => []
  | i, c :: cs =>
    if c = '(' then (i, true) :: marksFrom (i + 1) cs
    else if c = ')' then (i, false) :: marksFrom (i + 1) cs
    else marksFrom (i + 1) cs

/-- The brackets of a text, by character offset. -/
def bracketMarks (s : String) : List (Nat × Bool) := marksFrom 0 s.toList

theorem length_eraseIdx_lt {α : Type} (l : List α) (i : Nat) (h : i < l.length) :
    (l.eraseIdx i).length < l.length := by
  rw [List.length_eraseIdx_of_lt h]
  omega

/-- Pairs the first opening bracket with the first closing one until none is left. -/
def pairMarks (ms : List (Nat × Bool)) : Except ParseError Unit :=
  match hOpen : ms.findIdx? (·.2), hClose : ms.findIdx? (!·.2) with
  | none, none => .ok ()
  | some i, none => .error (.unbalancedOpen (ms.getD i (0, true)).1)
  | none, some j => .error (.unbalancedClose (ms.getD j (0, false)).1)
  | some i, some j =>
    if hji : j < i then .error (.unbalancedClose (ms.getD j (0, false)).1)
    else
      have hlen : ((ms.eraseIdx j).eraseIdx i).length < ms.length := by
        obtain ⟨hi, pi, -⟩ := List.findIdx?_eq_some_iff_getElem.1 hOpen
        obtain ⟨hj, pj, -⟩ := List.findIdx?_eq_some_iff_getElem.1 hClose
        have hne : i ≠ j := by
          rintro rfl
          simp_all
        have h1 := length_eraseIdx_lt ms j hj
        have h2 : i < (ms.eraseIdx j).length := by
          rw [List.length_eraseIdx_of_lt hj]
          omega
        have h3 := length_eraseIdx_lt (ms.eraseIdx j) i h2
        omega
      pairMarks ((ms.eraseIdx j).eraseIdx i)
termination_by ms.length

/-- Every `)` closes an earlier `(`, and every `(` is closed. -/
def checkBrackets (s : String) : Except ParseError Unit := pairMarks (bracketMarks s)

/-- The alternation check, then the bracket check; a bracket error wins over an alternation
error. -/
def validate (s : String) : Except ParseError Unit :=
  match checkTokens s with
  | .ok () => checkBrackets s
  | .error e =>
    if e.isAlternation then
      match checkBrackets s with
      | .ok () => .error e
      | .error b => .error b
    else .error e

end AttrExpr
