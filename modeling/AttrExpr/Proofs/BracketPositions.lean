import AttrExpr.Proofs.Brackets

/-!
# Where the bracket check points

The bracket check removes the first `(` together with the first `)`, round after round, and
reports character offsets that it stored before any removal. So the `k`-th `)` is paired with the
`k`-th `(`, first in, first out, and what it reports can be said in one pass over the text. With
the *depth* after a prefix its number of `(` less its number of `)`:

* it reports the first `)` after which the depth is negative, if there is one;
* otherwise, if there are more `(` than `)`, the `(` that has as many `(` before it as the text
  has `)` in all: the `)` took the `(` before it, first in, first out, so in `(()` it is the
  second `(` and not the first;
* otherwise it passes.

The pairing is first stated over the brackets with their offsets (`bracketVerdict`): a round
removes a `(` at the front and the first `)` after the run of `(` there, which changes neither the
first `)` that goes below zero nor the `(` left over after the last `)`.

## Main definitions

* `AttrExpr.bracketDepth` — the depth after a prefix
* `AttrExpr.firstUnopened` — the first `)` that closes nothing, in one pass
* `AttrExpr.bracketVerdict` — the pairing's answer, in one pass

## Main results

* `AttrExpr.pairMarks_eq_bracketVerdict` — the pairing gives the one-pass answer
* `AttrExpr.checkBrackets_positions` — the bracket check by depths and offsets
-/

namespace AttrExpr

/-- The depth after a prefix: its number of `(` less its number of `)`. -/
def bracketDepth (cs : List Char) : Int := (cs.count '(' : Int) - cs.count ')'

/-- From `d` brackets open, the offset of the first `)` that closes none. -/
def firstUnopened : Nat → List (Nat × Bool) → Option Nat
  | _, [] => none
  | d, (_, true) :: ms => firstUnopened (d + 1) ms
  | 0, (i, false) :: _ => some i
  | d + 1, (_, false) :: ms => firstUnopened d ms

/-- The `(` left over after the `)` took theirs, first in, first out. -/
def leftover (ms : List (Nat × Bool)) : List (Nat × Bool) :=
  (ms.filter (·.2)).drop (ms.countP (!·.2))

/-- The pairing's answer in one pass: the first `)` that closes nothing, else the `(` left over
after the `(` that the `)` took, else success. -/
def bracketVerdict (ms : List (Nat × Bool)) : Except ParseError Unit :=
  match firstUnopened 0 ms with
  | some p => .error (.unbalancedClose p)
  | none =>
    match leftover ms with
    | (q, _) :: _ => .error (.unbalancedOpen q)
    | [] => .ok ()

/-! ## The pairing in one pass -/

/-- Up to the first `)`, the brackets are a run of `(`. -/
theorem eq_opens_append_of_findIdx? {ms : List (Nat × Bool)} {j : Nat}
    (h : ms.findIdx? (!·.2) = some j) :
    ∃ os c rest, ms = os ++ c :: rest ∧ os.length = j ∧ (∀ m ∈ os, m.2 = true) ∧ c.2 = false := by
  induction ms generalizing j with
  | nil => simp at h
  | cons m ms ih =>
    cases hm : m.2 with
    | false =>
      simp only [List.findIdx?_cons, hm, Bool.not_false, if_true, Option.some.injEq] at h
      exact ⟨[], m, ms, rfl, h, by simp, hm⟩
    | true =>
      simp only [List.findIdx?_cons, hm, Bool.not_true, Bool.false_eq_true, if_false,
        Option.map_eq_some_iff] at h
      obtain ⟨j', hj', rfl⟩ := h
      obtain ⟨os, c, rest, rfl, hlen, hos, hc⟩ := ih hj'
      refine ⟨m :: os, c, rest, rfl, by simp [hlen], ?_, hc⟩
      simpa [hm] using hos

theorem firstUnopened_opens {os : List (Nat × Bool)} (hos : ∀ m ∈ os, m.2 = true) (d : Nat)
    (ms : List (Nat × Bool)) : firstUnopened d (os ++ ms) = firstUnopened (d + os.length) ms := by
  induction os generalizing d with
  | nil => rfl
  | cons o os ih =>
    obtain ⟨i, b⟩ := o
    have hb : b = true := hos _ List.mem_cons_self
    subst hb
    rw [List.cons_append, firstUnopened, ih (fun m hm => hos m (List.mem_cons_of_mem _ hm))]
    simp only [List.length_cons]
    congr 1
    omega

/-- A round removes a `(` at the front and the first `)`, after the run of `(` there: the answer
stays the same. -/
theorem bracketVerdict_round {o c : Nat × Bool} {os rest : List (Nat × Bool)}
    (ho : o.2 = true) (hos : ∀ m ∈ os, m.2 = true) (hc : c.2 = false) :
    bracketVerdict (o :: os ++ c :: rest) = bracketVerdict (os ++ rest) := by
  obtain ⟨i, b⟩ := o
  obtain ⟨k, b'⟩ := c
  simp only at ho hc
  subst ho hc
  -- the `)` removed is the one that brings the run of `(` in front down by one
  have hfirst : firstUnopened 0 ((i, true) :: os ++ (k, false) :: rest) =
      firstUnopened 0 (os ++ rest) := by
    rw [List.cons_append, firstUnopened, firstUnopened_opens hos, firstUnopened_opens hos,
      show 0 + 1 + os.length = 0 + os.length + 1 by omega, firstUnopened]
  -- the `(` left over after the last `)` are the same ones
  have hos0 : os.countP (!·.2) = 0 := List.countP_eq_zero.2 fun m hm => by simp [hos m hm]
  have hopen : leftover ((i, true) :: os ++ (k, false) :: rest) = leftover (os ++ rest) := by
    simp [leftover, List.filter_append, List.filter_eq_self.2 hos, List.countP_append, hos0]
  simp only [bracketVerdict, hfirst, hopen]

/-- A `)` in front closes nothing. -/
theorem bracketVerdict_close_cons (k : Nat) (ms : List (Nat × Bool)) :
    bracketVerdict ((k, false) :: ms) = .error (.unbalancedClose k) := by
  simp [bracketVerdict, firstUnopened]

/-- With no `)`, the first `(` is left over. -/
theorem bracketVerdict_opens {o : Nat × Bool} {os : List (Nat × Bool)}
    (hall : ∀ m ∈ o :: os, m.2 = true) : bracketVerdict (o :: os) = .error (.unbalancedOpen o.1) := by
  have hnone : firstUnopened 0 (o :: os) = none := by
    simpa [firstUnopened] using firstUnopened_opens hall 0 []
  have hcount : (o :: os).countP (!·.2) = 0 :=
    List.countP_eq_zero.2 fun x hx => by simp [hall x hx]
  simp [bracketVerdict, leftover, hnone, hcount, List.filter_eq_self.2 hall]

/-- When the first `)` comes before every `(`, it is the first bracket. -/
theorem eq_close_cons {ms : List (Nat × Bool)} {j : Nat} (hClose : ms.findIdx? (!·.2) = some j)
    (hOpen : ∀ i, ms.findIdx? (·.2) = some i → j < i) :
    ∃ k rest, ms = (k, false) :: rest ∧ j = 0 := by
  obtain ⟨os, ⟨k, b⟩, rest, rfl, hlen, hos, hc⟩ := eq_opens_append_of_findIdx? hClose
  simp only at hc
  subst hc
  cases os with
  | nil => exact ⟨k, rest, rfl, hlen.symm⟩
  | cons o os =>
    have := hOpen 0 (by simp [List.findIdx?_cons, hos o List.mem_cons_self])
    omega

/-- **The pairing gives the one-pass answer.** -/
theorem pairMarks_eq_bracketVerdict (ms : List (Nat × Bool)) :
    pairMarks ms = bracketVerdict ms := by
  fun_induction pairMarks ms with
  | case1 ms hOpen hClose =>
    -- no `(` and no `)`: no brackets at all
    have : ms = [] := by
      cases ms with
      | nil => rfl
      | cons m ms => cases hm : m.2 <;> simp_all [List.findIdx?_cons]
    simp [this, bracketVerdict, leftover, firstUnopened]
  | case2 ms i hOpen hClose =>
    -- only `(`: the first one is left over
    have hall : ∀ m ∈ ms, m.2 = true := by
      simpa using List.findIdx?_eq_none_iff.1 hClose
    cases ms with
    | nil => simp at hOpen
    | cons m ms =>
      simp only [List.findIdx?_cons, hall m List.mem_cons_self, if_true,
        Option.some.injEq] at hOpen
      subst hOpen
      rw [bracketVerdict_opens hall]
      rfl
  | case3 ms j hOpen hClose =>
    -- only `)`: the first one closes nothing
    obtain ⟨k, rest, rfl, rfl⟩ := eq_close_cons hClose fun i hi => by simp [hOpen] at hi
    rw [bracketVerdict_close_cons]
    rfl
  | case4 ms i j hOpen hClose hji =>
    obtain ⟨k, rest, rfl, rfl⟩ := eq_close_cons hClose fun i' hi' => by simp_all
    rw [bracketVerdict_close_cons]
    rfl
  | case5 ms i j hOpen hClose hji hlen ih =>
    rw [ih]
    obtain ⟨os, c, rest, rfl, rfl, hos, hc⟩ := eq_opens_append_of_findIdx? hClose
    -- the first `(` is at the front, before the first `)`
    cases os with
    | nil =>
      obtain ⟨hlt, hi, -⟩ := List.findIdx?_eq_some_iff_getElem.1 hOpen
      simp only [List.length_nil, Nat.not_lt, Nat.le_zero] at hji
      subst hji
      simp [hc] at hi
    | cons o os =>
      have ho := hos o List.mem_cons_self
      simp only [List.cons_append, List.findIdx?_cons, ho, if_true, Option.some.injEq] at hOpen
      subst hOpen
      have herase : ((o :: os ++ c :: rest).eraseIdx (o :: os).length).eraseIdx 0 = os ++ rest := by
        rw [List.eraseIdx_append_of_length_le (by simp)]
        simp
      rw [herase]
      exact (bracketVerdict_round ho (fun m hm => hos m (List.mem_cons_of_mem _ hm)) hc).symm

/-! ## Depths of prefixes -/

theorem bracketDepth_take_succ_cons (c : Char) (cs : List Char) (k : Nat) :
    bracketDepth ((c :: cs).take (k + 1)) = bracketDepth [c] + bracketDepth (cs.take k) := by
  simp only [List.take_succ_cons, bracketDepth, List.count_cons, List.count_nil, Int.natCast_add]
  omega

theorem bracketDepth_open : bracketDepth ['('] = 1 := by decide

theorem bracketDepth_close : bracketDepth [')'] = -1 := by decide

theorem bracketDepth_other {c : Char} (h₁ : c ≠ '(') (h₂ : c ≠ ')') : bracketDepth [c] = 0 := by
  simp [bracketDepth, h₁, h₂]

theorem bracketDepth_singleton_lt {c : Char} (h : bracketDepth [c] < 0) : c = ')' := by
  by_contra h₂
  by_cases h₁ : c = '('
  · subst h₁
    rw [bracketDepth_open] at h
    omega
  · rw [bracketDepth_other h₁ h₂] at h
    omega

/-- One character of the scan: a `)` with nothing open is reported, anything else moves the
depth. -/
theorem firstUnopened_marksFrom_cons (d i : Nat) (c : Char) (cs : List Char) :
    firstUnopened d (marksFrom i (c :: cs)) =
      if (d : Int) + bracketDepth [c] < 0 then some i
      else firstUnopened ((d : Int) + bracketDepth [c]).toNat (marksFrom (i + 1) cs) := by
  by_cases h₁ : c = '('
  · subst h₁
    show firstUnopened (d + 1) (marksFrom (i + 1) cs) = _
    rw [bracketDepth_open, if_neg (by omega), show ((d : Int) + 1).toNat = d + 1 by omega]
  · by_cases h₂ : c = ')'
    · subst h₂
      rw [bracketDepth_close]
      cases d with
      | zero => rfl
      | succ d =>
        show firstUnopened d (marksFrom (i + 1) cs) = _
        rw [if_neg (by omega), show (((d + 1 : Nat) : Int) + -1).toNat = d by omega]
    · simp only [marksFrom, if_neg h₁, if_neg h₂]
      rw [bracketDepth_other h₁ h₂, if_neg (by omega), Int.add_zero,
        show (d : Int).toNat = d by omega]

/-- The `)` that the scan reports is the first after which the depth, counted from `d`, is
negative. -/
theorem firstUnopened_marksFrom_eq_some {d i p : Nat} {cs : List Char}
    (h : firstUnopened d (marksFrom i cs) = some p) :
    ∃ k, p = i + k ∧ cs[k]? = some ')' ∧ (d : Int) + bracketDepth (cs.take (k + 1)) < 0 ∧
      ∀ k' < k, 0 ≤ (d : Int) + bracketDepth (cs.take (k' + 1)) := by
  induction cs generalizing d i with
  | nil => simp [marksFrom, firstUnopened] at h
  | cons c cs ih =>
    rw [firstUnopened_marksFrom_cons] at h
    split at h
    · -- the reported bracket is this one
      rename_i hneg
      cases h
      exact ⟨0, rfl, by simp [bracketDepth_singleton_lt (c := c) (by omega)], by simpa using hneg,
        by simp⟩
    · -- the reported bracket is further on, and the depth is not negative here
      rename_i hpos
      obtain ⟨k, rfl, hk, hneg, hprefix⟩ := ih h
      have hd : ((((d : Int) + bracketDepth [c]).toNat : Nat) : Int) = d + bracketDepth [c] :=
        Int.toNat_of_nonneg (by omega)
      refine ⟨k + 1, by omega, hk, ?_, Nat.forall_lt_succ_left.2 ⟨?_, fun k' hk' => ?_⟩⟩
      · rw [bracketDepth_take_succ_cons]
        omega
      · simpa using Int.not_lt.1 hpos
      · have := hprefix k' hk'
        rw [bracketDepth_take_succ_cons]
        omega

/-- When the scan reports nothing, no prefix has a negative depth. -/
theorem firstUnopened_marksFrom_eq_none {d i : Nat} {cs : List Char}
    (h : firstUnopened d (marksFrom i cs) = none) (k : Nat) :
    0 ≤ (d : Int) + bracketDepth (cs.take k) := by
  induction cs generalizing d i k with
  | nil => simp [bracketDepth]
  | cons c cs ih =>
    rw [firstUnopened_marksFrom_cons] at h
    split at h
    · cases h
    · rename_i hpos
      have hd : ((((d : Int) + bracketDepth [c]).toNat : Nat) : Int) = d + bracketDepth [c] :=
        Int.toNat_of_nonneg (by omega)
      cases k with
      | zero => simp [bracketDepth]
      | succ k =>
        have := ih h k
        rw [bracketDepth_take_succ_cons]
        omega

/-- Of two offsets at which the depth first turns negative, neither comes first. -/
theorem eq_of_first_negative {cs : List Char} {p p' : Nat}
    (hp : bracketDepth (cs.take (p + 1)) < 0) (hp' : ∀ k < p', 0 ≤ bracketDepth (cs.take (k + 1)))
    (hq : bracketDepth (cs.take (p' + 1)) < 0) (hq' : ∀ k < p, 0 ≤ bracketDepth (cs.take (k + 1))) :
    p = p' := by
  rcases Nat.lt_trichotomy p p' with hlt | heq | hgt
  · exact absurd (hp' p hlt) (Int.not_le.2 hp)
  · exact heq
  · exact absurd (hq' p' hgt) (Int.not_le.2 hq)

theorem firstUnopened_eq_some_iff (cs : List Char) (p : Nat) :
    firstUnopened 0 (marksFrom 0 cs) = some p ↔
      cs[p]? = some ')' ∧ bracketDepth (cs.take (p + 1)) < 0 ∧
        ∀ k < p, 0 ≤ bracketDepth (cs.take (k + 1)) := by
  constructor
  · intro h
    obtain ⟨k, hk, hchar, hneg, hpos⟩ := firstUnopened_marksFrom_eq_some h
    simp only [Nat.zero_add] at hk
    subst hk
    exact ⟨hchar, by simpa using hneg, fun k' hk' => by simpa using hpos k' hk'⟩
  · rintro ⟨-, hneg, hpos⟩
    cases hf : firstUnopened 0 (marksFrom 0 cs) with
    | none =>
      have := firstUnopened_marksFrom_eq_none hf (p + 1)
      simp only [Int.natCast_zero, Int.zero_add] at this
      omega
    | some p' =>
      obtain ⟨k, rfl, -, hneg', hpos'⟩ := firstUnopened_marksFrom_eq_some hf
      simp only [Int.natCast_zero, Int.zero_add] at hneg' hpos'
      rw [eq_of_first_negative hneg hpos' hneg' hpos, Nat.zero_add]

theorem firstUnopened_eq_none_iff (cs : List Char) :
    firstUnopened 0 (marksFrom 0 cs) = none ↔ ∀ k, 0 ≤ bracketDepth (cs.take k) := by
  constructor
  · intro h k
    simpa using firstUnopened_marksFrom_eq_none h k
  · intro hpos
    cases hf : firstUnopened 0 (marksFrom 0 cs) with
    | none => rfl
    | some p =>
      obtain ⟨k, -, -, hneg, -⟩ := firstUnopened_marksFrom_eq_some hf
      have := hpos (k + 1)
      simp only [Int.natCast_zero, Int.zero_add] at hneg
      omega

/-! ## The `(` left over -/

theorem filter_marksFrom_cons_of_ne {c : Char} (hc : c ≠ '(') (i : Nat) (cs : List Char) :
    (marksFrom i (c :: cs)).filter (·.2) = (marksFrom (i + 1) cs).filter (·.2) := by
  by_cases h₂ : c = ')' <;> simp [marksFrom, hc, h₂]

theorem length_filter_marksFrom (i : Nat) (cs : List Char) :
    ((marksFrom i cs).filter (·.2)).length = cs.count '(' := by
  induction cs generalizing i with
  | nil => rfl
  | cons c cs ih =>
    by_cases hc : c = '('
    · subst hc
      simp [marksFrom, ih]
    · rw [filter_marksFrom_cons_of_ne hc, ih]
      simp [hc]

theorem countP_marksFrom (i : Nat) (cs : List Char) :
    (marksFrom i cs).countP (!·.2) = cs.count ')' := by
  induction cs generalizing i with
  | nil => rfl
  | cons c cs ih =>
    by_cases h₁ : c = '(' <;> by_cases h₂ : c = ')' <;> simp_all [marksFrom]

/-- The `(` at place `m` among the `(` of a text is the one with `m` of them before it. -/
theorem drop_filter_marksFrom_eq_cons {i m q : Nat} {b : Bool} {cs : List Char}
    {rest : List (Nat × Bool)} (h : ((marksFrom i cs).filter (·.2)).drop m = (q, b) :: rest) :
    ∃ k, q = i + k ∧ cs[k]? = some '(' ∧ (cs.take k).count '(' = m := by
  induction cs generalizing i m with
  | nil => simp [marksFrom] at h
  | cons c cs ih =>
    by_cases hc : c = '('
    · subst hc
      cases m with
      | zero =>
        simp only [marksFrom, if_true, List.filter_cons, List.drop_zero, List.cons.injEq,
          Prod.mk.injEq] at h
        exact ⟨0, by omega, rfl, rfl⟩
      | succ m =>
        simp only [marksFrom, if_true, List.filter_cons, List.drop_succ_cons] at h
        obtain ⟨k, rfl, hk, hcount⟩ := ih h
        exact ⟨k + 1, by omega, hk, by simp [hcount]⟩
    · rw [filter_marksFrom_cons_of_ne hc] at h
      obtain ⟨k, rfl, hk, hcount⟩ := ih h
      exact ⟨k + 1, by omega, hk, by simp [hc, hcount]⟩

/-- Two `(` with as many `(` before them are the same. -/
theorem eq_of_count_take {cs : List Char} {q q' : Nat} (hq : cs[q]? = some '(')
    (hq' : cs[q']? = some '(') (h : (cs.take q).count '(' = (cs.take q').count '(') : q = q' := by
  -- a `(` further on has one more `(` before it
  have more : ∀ a b, cs[a]? = some '(' → a < b → (cs.take a).count '(' < (cs.take b).count '(' := by
    intro a b ha hab
    have h₁ : (cs.take (a + 1)).count '(' = (cs.take a).count '(' + 1 := by
      rw [List.take_add_one, ha]
      simp
    have h₂ := (List.take_prefix_take_left (l := cs) (show a + 1 ≤ b by omega)).count_le '('
    omega
  rcases Nat.lt_trichotomy q q' with hlt | heq | hgt
  · exact absurd h (Nat.ne_of_lt (more q q' hq hlt))
  · exact heq
  · exact absurd h.symm (Nat.ne_of_lt (more q' q hq' hgt))

theorem leftover_eq_cons_iff (cs : List Char) (q : Nat) :
    (∃ b rest, leftover (marksFrom 0 cs) = (q, b) :: rest) ↔
      cs.count ')' < cs.count '(' ∧ cs[q]? = some '(' ∧ (cs.take q).count '(' = cs.count ')' := by
  constructor
  · rintro ⟨b, rest, h⟩
    obtain ⟨k, hk, hchar, hcount⟩ := drop_filter_marksFrom_eq_cons h
    rw [Nat.zero_add] at hk
    subst hk
    have hlen := congrArg List.length h
    simp only [leftover, List.length_drop, length_filter_marksFrom, countP_marksFrom,
      List.length_cons] at hlen
    exact ⟨by omega, hchar, by rw [hcount, countP_marksFrom]⟩
  · rintro ⟨hlt, hchar, hcount⟩
    have hne : leftover (marksFrom 0 cs) ≠ [] := by
      apply List.ne_nil_of_length_pos
      simp only [leftover, List.length_drop, length_filter_marksFrom, countP_marksFrom]
      omega
    obtain ⟨⟨q', b⟩, rest, h⟩ := List.exists_cons_of_ne_nil hne
    obtain ⟨k, hk, hchar', hcount'⟩ := drop_filter_marksFrom_eq_cons h
    rw [Nat.zero_add] at hk
    subst hk
    obtain rfl : q = q' :=
      eq_of_count_take hchar hchar' (by rw [hcount, hcount', countP_marksFrom])
    exact ⟨b, rest, h⟩

theorem leftover_eq_nil_iff (cs : List Char) :
    leftover (marksFrom 0 cs) = [] ↔ cs.count '(' ≤ cs.count ')' := by
  simp [leftover, length_filter_marksFrom, countP_marksFrom]

/-! ## The bracket check -/

theorem bracketVerdict_eq_close_iff (ms : List (Nat × Bool)) (p : Nat) :
    bracketVerdict ms = .error (.unbalancedClose p) ↔ firstUnopened 0 ms = some p := by
  unfold bracketVerdict
  split
  · simp_all
  · split <;> simp_all

theorem bracketVerdict_eq_open_iff (ms : List (Nat × Bool)) (q : Nat) :
    bracketVerdict ms = .error (.unbalancedOpen q) ↔
      firstUnopened 0 ms = none ∧ ∃ b rest, leftover ms = (q, b) :: rest := by
  unfold bracketVerdict
  split
  · simp_all
  · split <;> simp_all

theorem bracketVerdict_eq_ok_iff (ms : List (Nat × Bool)) :
    bracketVerdict ms = .ok () ↔ firstUnopened 0 ms = none ∧ leftover ms = [] := by
  unfold bracketVerdict
  split
  · simp_all
  · split <;> simp_all

/-- **Where the bracket check points.** With the depth after a prefix its number of `(` less
its number of `)`, and offsets counted in characters: the check reports the first `)` after which
the depth is negative; failing that, when there are more `(` than `)`, the `(` with as many `(`
before it as there are `)` in the whole text; and otherwise it passes. -/
theorem checkBrackets_positions (s : String) :
    (∀ p, checkBrackets s = .error (.unbalancedClose p) ↔
      s.toList[p]? = some ')' ∧ bracketDepth (s.toList.take (p + 1)) < 0 ∧
        ∀ k < p, 0 ≤ bracketDepth (s.toList.take (k + 1))) ∧
    (∀ q, checkBrackets s = .error (.unbalancedOpen q) ↔
      (∀ k, 0 ≤ bracketDepth (s.toList.take k)) ∧ s.toList.count ')' < s.toList.count '(' ∧
        s.toList[q]? = some '(' ∧ (s.toList.take q).count '(' = s.toList.count ')') ∧
    (checkBrackets s = .ok () ↔
      (∀ k, 0 ≤ bracketDepth (s.toList.take k)) ∧ s.toList.count '(' = s.toList.count ')') := by
  have hcheck : checkBrackets s = bracketVerdict (marksFrom 0 s.toList) :=
    pairMarks_eq_bracketVerdict _
  refine ⟨fun p => ?_, fun q => ?_, ?_⟩
  · rw [hcheck, bracketVerdict_eq_close_iff, firstUnopened_eq_some_iff]
  · rw [hcheck, bracketVerdict_eq_open_iff, firstUnopened_eq_none_iff, leftover_eq_cons_iff]
  · rw [hcheck, bracketVerdict_eq_ok_iff, firstUnopened_eq_none_iff, leftover_eq_nil_iff]
    -- the whole text is a prefix, so its depth is not negative either
    refine and_congr_right fun hpos => ?_
    have := hpos s.toList.length
    simp only [List.take_length, bracketDepth] at this
    omega

/-- The `)` took the first `(`, so the second one is reported. -/
example : checkBrackets "(()" = .error (.unbalancedOpen 1) := by
  rw [checkBrackets, pairMarks_eq_bracketVerdict]
  decide

end AttrExpr
