import AttrExpr.Proofs.Leaves

/-!
# The nested-list form can be read back

A tree prints as a nested list, `[l, 'op', r]`, its leaves as their texts. A path may hold
brackets, commas and quotes, so the printed form is not a grammar one can read back blindly;
but the leaves of a built tree are *plain*: not empty, with no space, not starting with `[`, a
path holding a `/` and a number none. For such trees the printed form determines the tree.

The reading back is the obvious one. A node's form starts with `[` and a leaf's does not. Inside
a node the left tree is followed by `, '`, and its last leaf is followed by some closing
brackets and then `, `; a plain leaf holds no space, so it is the part before the first space,
less those brackets and the comma. The right tree is followed by one more closing bracket than
its parent is, which is why the main lemma is stated for a tree followed by `k` closing
brackets, a comma and a space.

## Main definitions

* `AttrExpr.PlainText`, `AttrExpr.Expr.PlainLeaves` — the leaves the form can be read back from

## Main results

* `AttrExpr.Expr.eq_of_display_append` — the form, followed by a separator, determines the tree
* `AttrExpr.Expr.display_injective` — two trees with plain leaves that print alike are equal
* `AttrExpr.Expr.plainLeaves_of_wellWritten` — a well written tree has plain leaves
* `AttrExpr.display_decodes` — so the form of a built tree determines it
-/

namespace AttrExpr

/-! ## Plain leaves -/

/-- A leaf text the nested-list form can be read back from: not empty, with no space, and not
starting with `[`. -/
def PlainText (t : String) : Prop :=
  t.toList ≠ [] ∧ ' ' ∉ t.toList ∧ t.toList.head? ≠ some '['

/-- Leaves with plain texts, a path's holding a `/` and a number's none. -/
def Expr.PlainLeaves : Expr → Prop
  | .number t => PlainText t ∧ '/' ∉ t.toList
  | .attribute t => PlainText t ∧ '/' ∈ t.toList
  | .binary _ l r => l.PlainLeaves ∧ r.PlainLeaves

/-! ## Reading the form back -/

theorem Expr.toList_display_binary (op : BinOp) (l r : Expr) :
    (Expr.binary op l r).display.toList =
      '[' :: l.display.toList ++ ',' :: ' ' :: '\'' :: op.symbol :: '\'' :: ',' :: ' ' ::
        (r.display.toList ++ [']']) := by
  simp [Expr.display, BinOp.text]

/-- Two texts with no space, each followed by a space, are equal when the whole lines are. -/
theorem eq_of_append_space {a b x y : List Char} (ha : ' ' ∉ a) (hb : ' ' ∉ b)
    (h : a ++ ' ' :: x = b ++ ' ' :: y) : a = b := by
  -- each is what comes before the first space
  have before : ∀ c z, ' ' ∉ c → (c ++ ' ' :: z).takeWhile (· != ' ') = c := by
    intro c z hc
    have hne : ∀ d ∈ c, (d != ' ') = true := by
      intro d hd
      rw [bne_iff_ne]
      rintro rfl
      exact hc hd
    rw [List.takeWhile_append_of_pos hne]
    simp
  rw [← before a x ha, ← before b y hb, h]

theorem BinOp.symbol_injective : Function.Injective BinOp.symbol := by
  intro a b h
  cases a <;> cases b <;> first | rfl | cases h

theorem PlainText.head?_append {t : String} (ht : PlainText t) (z : List Char) :
    (t.toList ++ z).head? ≠ some '[' := by
  obtain ⟨c, cs, hc⟩ := List.exists_cons_of_ne_nil ht.1
  have hhead := ht.2.2
  rw [hc] at hhead ⊢
  exact hhead

theorem Expr.head?_display_binary (op : BinOp) (l r : Expr) (z : List Char) :
    ((Expr.binary op l r).display.toList ++ z).head? = some '[' := by
  rw [Expr.toList_display_binary]
  rfl

/-- A plain leaf's text never starts the form of a node, which starts with `[`. -/
theorem PlainText.append_ne_display_binary {t : String} (ht : PlainText t) (z z' : List Char)
    (op : BinOp) (l r : Expr) : t.toList ++ z ≠ (Expr.binary op l r).display.toList ++ z' := by
  intro h
  have hhead := congrArg List.head? h
  rw [Expr.head?_display_binary] at hhead
  exact ht.head?_append z hhead

/-- Two texts with no space, each followed by the same closing brackets and a separator, are
equal when the whole lines are. -/
theorem eq_of_append_separator {t u : List Char} (ht : ' ' ∉ t) (hu : ' ' ∉ u) {k : Nat}
    {x y : List Char}
    (h : t ++ (List.replicate k ']' ++ ',' :: ' ' :: x) =
      u ++ (List.replicate k ']' ++ ',' :: ' ' :: y)) : t = u := by
  have hsep : ∀ v : List Char, ' ' ∉ v → ' ' ∉ v ++ List.replicate k ']' ++ [','] := by
    intro v hv
    simp [hv, List.mem_replicate]
  have hpre := eq_of_append_space (hsep t ht) (hsep u hu) (by simpa using h)
  simpa using hpre

/-- The nested-list form followed by closing brackets and a separator: the printed tree is
the part before it. -/
theorem Expr.eq_of_display_append {e₁ e₂ : Expr} (h₁ : e₁.PlainLeaves)
    (h₂ : e₂.PlainLeaves) {k : Nat} {x₁ x₂ : List Char}
    (h : e₁.display.toList ++ (List.replicate k ']' ++ ',' :: ' ' :: x₁) =
      e₂.display.toList ++ (List.replicate k ']' ++ ',' :: ' ' :: x₂)) : e₁ = e₂ := by
  induction e₁ generalizing e₂ k x₁ x₂ with
  | binary o₁ l₁ r₁ ihl ihr =>
    cases e₂ with
    | binary o₂ l₂ r₂ =>
      rw [Expr.toList_display_binary, Expr.toList_display_binary] at h
      simp only [List.cons_append, List.append_assoc, List.cons.injEq, true_and] at h
      -- the left trees are followed by the separator, with no closing bracket before it
      obtain rfl : l₁ = l₂ := ihl h₁.1 h₂.1 (k := 0) (by simpa using h)
      simp only [List.append_cancel_left_eq, List.cons.injEq, true_and] at h
      obtain rfl := BinOp.symbol_injective h.1
      -- the right trees are followed by one more closing bracket
      obtain rfl : r₁ = r₂ :=
        ihr h₁.2 h₂.2 (k := k + 1) (by simpa [List.replicate_succ] using h.2)
      rfl
    | _ t₂ =>
      exact absurd h.symm (h₂.1.append_ne_display_binary _ _ _ _ _)
  | number t₁ =>
    cases e₂ with
    | number t₂ =>
      rw [String.toList_inj.1 (eq_of_append_separator h₁.1.2.1 h₂.1.2.1 h)]
    | «attribute» t₂ =>
      rw [← String.toList_inj.1 (eq_of_append_separator h₁.1.2.1 h₂.1.2.1 h)] at h₂
      exact absurd h₂.2 h₁.2
    | binary o l r =>
      exact absurd h (h₁.1.append_ne_display_binary _ _ _ _ _)
  | «attribute» t₁ =>
    cases e₂ with
    | number t₂ =>
      rw [String.toList_inj.1 (eq_of_append_separator h₁.1.2.1 h₂.1.2.1 h)] at h₁
      exact absurd h₁.2 h₂.2
    | «attribute» t₂ =>
      rw [String.toList_inj.1 (eq_of_append_separator h₁.1.2.1 h₂.1.2.1 h)]
    | binary o l r =>
      exact absurd h (h₁.1.append_ne_display_binary _ _ _ _ _)

/-- Trees with plain leaves that print alike are equal: both forms followed by the same
separator. -/
theorem Expr.display_injective {e₁ e₂ : Expr} (h₁ : e₁.PlainLeaves)
    (h₂ : e₂.PlainLeaves) (h : e₁.display = e₂.display) : e₁ = e₂ :=
  @Expr.eq_of_display_append e₁ e₂ h₁ h₂ 0 [] [] (by rw [h])

/-- Without plain leaves the form is ambiguous: a path text may spell a whole node. -/
example : (Expr.attribute "[1, '+', 2]").display =
    (Expr.binary .add (.number "1") (.number "2")).display := by decide

/-! ## The leaves of a built tree are plain -/

/-- A path starts with the start of its first piece. -/
theorem head_of_isAttribute {t : String} (h : isAttribute t = true) :
    ∃ c cs, t.toList = c :: cs ∧ isSegmentStart c = true := by
  have hsegs := ((isAttribute_iff_segments t).1 h).2
  rw [← splitSlash_eq_splitOn] at hsegs
  cases ht : t.toList with
  | nil =>
    rw [ht] at hsegs
    obtain ⟨c, cs, hnil, -⟩ := hsegs [] (by simp [splitSlash])
    cases hnil
  | cons c cs =>
    rw [ht] at hsegs
    by_cases hc : c = '/'
    · obtain ⟨d, ds, hnil, -⟩ := hsegs [] (by simp [splitSlash, hc])
      cases hnil
    · -- the first piece starts with `c`
      obtain ⟨w, hw⟩ : ∃ w, c :: w ∈ splitSlash (c :: cs) := by
        cases hs : splitSlash cs with
        | nil => exact ⟨[], by simp [splitSlash, hc, hs]⟩
        | cons w ws => exact ⟨w, by simp [splitSlash, hc, hs]⟩
      obtain ⟨d, ds, hd, hstart, -⟩ := hsegs _ hw
      obtain ⟨rfl, -⟩ := List.cons.inj hd
      exact ⟨_, cs, rfl, by simpa [isSegmentStart, or_assoc] using hstart⟩

theorem PlainText.of_forall_mem {t : String} (hne : t.toList ≠ []) (hspace : ' ' ∉ t.toList)
    (hhead : ∀ c cs, t.toList = c :: cs → c ≠ '[') : PlainText t := by
  refine ⟨hne, hspace, fun h => ?_⟩
  obtain ⟨cs, hcs⟩ := List.head?_eq_some_iff.1 h
  exact hhead _ cs hcs rfl

/-- A well written tree has plain leaves: a number is written with number characters, a path
starts with a segment character and holds a slash. -/
theorem Expr.plainLeaves_of_wellWritten {e : Expr} (he : e.wellWritten = true) :
    e.PlainLeaves := by
  induction e with
  | number t =>
    have hnum : isNumber t = true := he
    simp only [isNumber, Bool.and_eq_true, List.all_eq_true, Bool.not_eq_true',
      String.isEmpty_eq_false_iff] at hnum
    have hnot : ∀ c, isNumberChar c = false → c ∉ t.toList := fun c hc hmem => by
      simp [hnum.1.2 c hmem] at hc
    refine ⟨PlainText.of_forall_mem ?_ (hnot ' ' rfl) ?_, hnot '/' rfl⟩
    · simpa using hnum.1.1
    · rintro c cs hcs rfl
      exact hnot '[' rfl (hcs ▸ List.mem_cons_self)
  | «attribute» t =>
    simp only [Expr.wellWritten, Bool.and_eq_true, List.all_eq_true, Bool.not_eq_true'] at he
    obtain ⟨c, cs, hcs, hstart⟩ := head_of_isAttribute he.1
    refine ⟨PlainText.of_forall_mem (by simp [hcs]) (fun hmem => ?_) ?_,
      slash_mem_of_isAttribute he.1⟩
    · have := he.2 ' ' hmem
      contradiction
    · intro d ds hds
      obtain ⟨rfl, -⟩ := List.cons.inj (hcs.symm.trans hds)
      rintro rfl
      exact absurd hstart (by decide)
  | binary op l r ihl ihr =>
    simp only [Expr.wellWritten, Bool.and_eq_true] at he
    exact ⟨ihl he.1, ihr he.2⟩

/-- **The nested-list form determines the tree**, among the trees with plain leaves, and every
built tree is one of them. -/
theorem display_decodes :
    (∀ e₁ e₂ : Expr, e₁.PlainLeaves → e₂.PlainLeaves →
        e₁.display = e₂.display → e₁ = e₂) ∧
      ∀ s e, parseExpression s = .ok e → e.PlainLeaves :=
  ⟨fun _ _ h₁ h₂ h => Expr.display_injective h₁ h₂ h,
    fun _ _ h => Expr.plainLeaves_of_wellWritten (parseExpression_wellWritten h)⟩

end AttrExpr
