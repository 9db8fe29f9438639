import AttrExpr.Proofs.Render
import Mathlib

/-!
# The operand grammars

A *number* is a decimal literal `[+-]?(D+ | D+ '.' D* | D* '.' D+)([eE][+-]?D+)?`, with `D` an
ASCII digit (`DecimalNumber`). The literal reader also knows `inf`, `infinity` and `nan` in any
case, but none of their letters lowers from a number character, so the character filter keeps
them out; what the reader then accepts is its decimal grammar, which is the one above.

A *path* is what cutting at `/` gives as exactly four pieces, each starting with an ASCII letter,
an ASCII digit or `-` and holding no space and no bracket (`PathSegment`).

No body passes two of the tests `(`, `)`, operator, number and path: an operator is one
character that no number or path is, a number holds no `/` and a path at least three. So the order
in which a body is tested never decides its class.

## Main definitions

* `AttrExpr.DecimalNumber` — the grammar of numbers
* `AttrExpr.PathSegment` — the pieces of a path
* `AttrExpr.TokenKind.test` — the test of one class on its own

## Main results

* `Binary64.parseDecimal?_isSome_iff` — the decimal reader accepts significand and exponent
* `AttrExpr.isNumber_iff_decimalNumber` — numbers are the decimal literals
* `AttrExpr.isAttribute_iff_segments` — paths are four pieces between slashes
* `AttrExpr.filter_test_eq_classify` — a body passes the test of its class and no other
* `AttrExpr.operand_grammars` — all of it together
-/

namespace AttrExpr

/-! ## The grammar of numbers -/

/-- One or more ASCII digits. -/
def Digits (ds : List Char) : Prop := ds ≠ [] ∧ ∀ d ∈ ds, d.isDigit = true

/-- No sign, `+` or `-`. -/
def OptSign (s : List Char) : Prop := s = [] ∨ s = ['+'] ∨ s = ['-']

/-- `D+`, `D+ '.' D*` or `D* '.' D+`. -/
def Significand (m : List Char) : Prop :=
  Digits m ∨ ∃ w f, m = w ++ '.' :: f ∧ (∀ d ∈ w ++ f, d.isDigit = true) ∧ w ++ f ≠ []

/-- Nothing, or `e` or `E` followed by an optional sign and digits. -/
def OptExponent (x : List Char) : Prop :=
  x = [] ∨ ∃ c s ds, x = c :: (s ++ ds) ∧ (c = 'e' ∨ c = 'E') ∧ OptSign s ∧ Digits ds

/-- A decimal literal, `[+-]?(D+ | D+ '.' D* | D* '.' D+)([eE][+-]?D+)?`. -/
def DecimalNumber (cs : List Char) : Prop :=
  ∃ s m x, cs = s ++ m ++ x ∧ OptSign s ∧ Significand m ∧ OptExponent x

theorem OptExponent.head {x : List Char} (hx : OptExponent x) :
    ∀ c ∈ x.head?, c.isDigit = false ∧ c ≠ '.' := by
  rcases hx with rfl | ⟨c, s, ds, rfl, hc, -⟩
  · simp
  · intro d hd
    obtain rfl : d = c := by simpa using hd.symm
    rcases hc with rfl | rfl <;> decide

namespace Binary64

theorem spanDigits_append {ds r : List Char} (hd : ∀ d ∈ ds, d.isDigit = true)
    (hr : ∀ c ∈ r.head?, c.isDigit = false) : spanDigits (ds ++ r) = (ds, r) := by
  have htake : r.takeWhile Char.isDigit = [] := by
    cases r with
    | nil => rfl
    | cons c r => simp [hr c rfl]
  have hdrop : r.dropWhile Char.isDigit = r := by
    cases r with
    | nil => rfl
    | cons c r => simp [hr c rfl]
  simp [spanDigits, List.takeWhile_append_of_pos hd, List.dropWhile_append_of_pos hd, htake, hdrop]

/-- The leading digits and the rest, which starts with no digit. -/
theorem spanDigits_spec (cs : List Char) :
    ∃ ds r, spanDigits cs = (ds, r) ∧ cs = ds ++ r ∧ (∀ d ∈ ds, d.isDigit = true) ∧
      ∀ c ∈ r.head?, c.isDigit = false := by
  refine ⟨_, _, rfl, List.takeWhile_append_dropWhile.symm, List.all_eq_true.1 List.all_takeWhile,
    fun c hc => ?_⟩
  have := List.head?_dropWhile_not Char.isDigit cs
  rw [Option.mem_def] at hc
  simpa [hc] using this

theorem ne_sign_of_isDigit {d : Char} (h : d.isDigit = true) : d ≠ '+' ∧ d ≠ '-' := by
  constructor <;> rintro rfl <;> exact absurd h (by decide)

theorem spanSign_spec (cs : List Char) : ∃ s, OptSign s ∧ cs = s ++ (spanSign cs).2 := by
  unfold spanSign
  split
  · exact ⟨['-'], .inr (.inr rfl), rfl⟩
  · exact ⟨['+'], .inr (.inl rfl), rfl⟩
  · exact ⟨[], .inl rfl, rfl⟩

theorem spanSign_append {s r : List Char} (hs : OptSign s)
    (hr : ∀ c ∈ r.head?, c ≠ '+' ∧ c ≠ '-') : (spanSign (s ++ r)).2 = r := by
  rcases hs with rfl | rfl | rfl
  · cases r with
    | nil => rfl
    | cons c r =>
      obtain ⟨h₁, h₂⟩ := hr c rfl
      unfold spanSign
      split <;> simp_all
  · rfl
  · rfl

/-- What the exponent reader accepts is an exponent part. -/
theorem optExponent_of_parseExponent? {x : List Char} (h : (parseExponent? x).isSome) :
    OptExponent x := by
  cases x with
  | nil => exact .inl rfl
  | cons c cs =>
    obtain ⟨s, hs, hcs⟩ := spanSign_spec cs
    obtain ⟨ds, r, hspan, hrest, hdig, -⟩ := spanDigits_spec (spanSign cs).2
    cases hsign : spanSign cs with
    | mk neg rest =>
    rw [hsign] at hcs hspan hrest
    dsimp only at hcs hspan hrest
    simp only [parseExponent?, hsign, hspan] at h
    by_cases hc : (c == 'e' || c == 'E') = true
    · rw [if_pos hc] at h
      -- the reader accepts only a non-empty run of digits that ends the text
      by_cases hds : (ds.isEmpty || !r.isEmpty) = true
      · rw [if_pos hds] at h
        cases h
      · simp only [Bool.or_eq_true, List.isEmpty_iff, Bool.not_eq_eq_eq_not, Bool.not_true,
          List.isEmpty_eq_false_iff, ne_eq, not_or, Decidable.not_not, beq_iff_eq] at hds hc
        refine .inr ⟨c, s, ds, ?_, hc, hs, hds.1, hdig⟩
        rw [hcs, hrest, hds.2, List.append_nil]
    · rw [if_neg hc] at h
      cases h

/-- The exponent reader accepts every exponent part. -/
theorem parseExponent?_isSome_of_optExponent {x : List Char} (hx : OptExponent x) :
    (parseExponent? x).isSome := by
  rcases hx with rfl | ⟨c, s, ds, rfl, hc, hs, hne, hdig⟩
  · rfl
  · have hsign := spanSign_append hs (r := ds) fun d hd =>
      ne_sign_of_isDigit (hdig d (List.mem_of_mem_head? hd))
    cases hss : spanSign (s ++ ds) with
    | mk neg rest =>
    rw [hss] at hsign
    dsimp only at hsign
    subst hsign
    have hspan : spanDigits rest = (rest, []) := by
      simpa using spanDigits_append (r := []) hdig (by simp)
    have hc' : (c == 'e' || c == 'E') = true := by rcases hc with rfl | rfl <;> rfl
    simp [parseExponent?, hc', hss, hspan, hne]

theorem parseExponent?_isSome_iff (x : List Char) :
    (parseExponent? x).isSome ↔ OptExponent x :=
  ⟨optExponent_of_parseExponent?, parseExponent?_isSome_of_optExponent⟩

/-- The significand with a point: digits, the point, then digits. -/
theorem parseDecimal?_point {cs w more f x : List Char} (hw : spanDigits cs = (w, '.' :: more))
    (hf : spanDigits more = (f, x)) :
    (parseDecimal? cs).isSome = (!(w.isEmpty && f.isEmpty) && (parseExponent? x).isSome) := by
  simp only [parseDecimal?, hw, hf]
  cases w.isEmpty && f.isEmpty <;> simp

/-- The significand without a point: digits only. -/
theorem parseDecimal?_no_point {cs w r : List Char} (hw : spanDigits cs = (w, r))
    (hr : ∀ c ∈ r.head?, c ≠ '.') :
    (parseDecimal? cs).isSome = (!w.isEmpty && (parseExponent? r).isSome) := by
  simp only [parseDecimal?, hw]
  split
  · simp at hr
  · simp only [List.isEmpty_nil, Bool.and_true]
    cases w.isEmpty <;> simp

/-- What the decimal reader accepts is a significand followed by an exponent part. -/
theorem significand_of_parseDecimal? {cs : List Char} (h : (parseDecimal? cs).isSome) :
    ∃ m x, cs = m ++ x ∧ Significand m ∧ OptExponent x := by
  obtain ⟨w, r, hspan, hcs, hw, -⟩ := spanDigits_spec cs
  -- the leading digits stop at a point, or at what follows the significand
  by_cases hpoint : r.head? = some '.'
  · obtain ⟨more, rfl⟩ : ∃ more, r = '.' :: more := by
      cases r with
      | nil => cases hpoint
      | cons c more => exact ⟨more, by simpa using hpoint⟩
    obtain ⟨f, x, hspan', hmore, hf, -⟩ := spanDigits_spec more
    rw [parseDecimal?_point hspan hspan', Bool.and_eq_true] at h
    have hne : w ++ f ≠ [] := by
      intro hnil
      obtain ⟨rfl, rfl⟩ := List.append_eq_nil_iff.1 hnil
      simp at h
    refine ⟨w ++ '.' :: f, x, by simp [hcs, hmore], .inr ⟨w, f, rfl, ?_, hne⟩,
      optExponent_of_parseExponent? h.2⟩
    simpa [or_imp, forall_and] using And.intro hw hf
  · have hr : ∀ c ∈ r.head?, c ≠ '.' := fun c hc heq => hpoint (heq ▸ hc)
    rw [parseDecimal?_no_point hspan hr, Bool.and_eq_true] at h
    have hne : w ≠ [] := by
      rintro rfl
      simp at h
    exact ⟨w, r, hcs, .inl ⟨hne, hw⟩, optExponent_of_parseExponent? h.2⟩

/-- The decimal reader accepts every significand followed by an exponent part. -/
theorem parseDecimal?_isSome_of_significand {m x : List Char} (hm : Significand m)
    (hx : OptExponent x) : (parseDecimal? (m ++ x)).isSome := by
  have hxe := parseExponent?_isSome_of_optExponent hx
  rcases hm with ⟨hne, hdig⟩ | ⟨w, f, rfl, hdig, hne⟩
  · rw [parseDecimal?_no_point (spanDigits_append hdig fun c hc => (hx.head c hc).1)
      fun c hc => (hx.head c hc).2]
    simp [hne, hxe]
  · simp only [List.mem_append, or_imp, forall_and] at hdig
    have hw : spanDigits (w ++ '.' :: f ++ x) = (w, '.' :: (f ++ x)) := by
      rw [List.append_assoc, List.cons_append]
      exact spanDigits_append hdig.1 (by simp)
    rw [parseDecimal?_point hw (spanDigits_append hdig.2 fun c hc => (hx.head c hc).1)]
    simp only [hxe, Bool.and_true, Bool.not_eq_true', Bool.and_eq_false_iff,
      List.isEmpty_eq_false_iff]
    simp only [ne_eq, List.append_eq_nil_iff, not_and] at hne
    exact not_or_of_imp hne

theorem parseDecimal?_isSome_iff (cs : List Char) :
    (parseDecimal? cs).isSome ↔ ∃ m x, cs = m ++ x ∧ Significand m ∧ OptExponent x := by
  constructor
  · exact significand_of_parseDecimal?
  · rintro ⟨m, x, rfl, hm, hx⟩
    exact parseDecimal?_isSome_of_significand hm hx

end Binary64

/-! ## The number characters -/

theorem isNumberChar_of_isDigit {c : Char} (h : c.isDigit = true) : isNumberChar c = true := by
  simp [isNumberChar, h]

theorem OptSign.isNumberChar {s : List Char} (hs : OptSign s) :
    ∀ c ∈ s, isNumberChar c = true := by
  rcases hs with rfl | rfl | rfl <;> simp [AttrExpr.isNumberChar]

theorem Significand.isNumberChar {m : List Char} (hm : Significand m) :
    ∀ c ∈ m, isNumberChar c = true := by
  rcases hm with ⟨-, hdig⟩ | ⟨w, f, rfl, hdig, -⟩
  · exact fun c hc => isNumberChar_of_isDigit (hdig c hc)
  · intro c hc
    simp only [List.mem_append, List.mem_cons] at hc hdig
    rcases hc with hc | rfl | hc
    · exact isNumberChar_of_isDigit (hdig c (.inl hc))
    · rfl
    · exact isNumberChar_of_isDigit (hdig c (.inr hc))

theorem OptExponent.isNumberChar {x : List Char} (hx : OptExponent x) :
    ∀ c ∈ x, isNumberChar c = true := by
  rcases hx with rfl | ⟨c, s, ds, rfl, hc, hs, -, hdig⟩
  · simp
  · intro d hd
    simp only [List.mem_cons, List.mem_append] at hd
    rcases hd with rfl | hd | hd
    · rcases hc with rfl | rfl <;> rfl
    · exact hs.isNumberChar d hd
    · exact isNumberChar_of_isDigit (hdig d hd)

/-- A significand starts with a digit or a point, so with no sign. -/
theorem Significand.head {m : List Char} (hm : Significand m) (x : List Char) :
    m ≠ [] ∧ ∀ c ∈ (m ++ x).head?, c ≠ '+' ∧ c ≠ '-' := by
  rcases hm with ⟨hne, hdig⟩ | ⟨w, f, rfl, hdig, -⟩
  · obtain ⟨c, m, rfl⟩ := List.exists_cons_of_ne_nil hne
    refine ⟨hne, fun d hd => ?_⟩
    obtain rfl : d = c := by simpa using hd.symm
    exact Binary64.ne_sign_of_isDigit (hdig d List.mem_cons_self)
  · refine ⟨by simp, fun d hd => ?_⟩
    cases w with
    | nil =>
      obtain rfl : d = '.' := by simpa using hd.symm
      decide
    | cons c w =>
      obtain rfl : d = c := by simpa using hd.symm
      exact Binary64.ne_sign_of_isDigit (hdig d (by simp))

/-- A number character lowers to no letter of `inf`, `infinity` or `nan`. -/
theorem toLower_of_isNumberChar {c : Char} (h : isNumberChar c = true) :
    c.toLower ≠ 'i' ∧ c.toLower ≠ 'n' := by
  simp only [isNumberChar, Bool.or_eq_true, beq_iff_eq] at h
  rcases h with ((((hd | rfl) | rfl) | rfl) | rfl) | rfl
  · -- a digit lies below the capitals, so it lowers to itself
    simp only [Char.isDigit, Bool.and_eq_true, decide_eq_true_eq] at hd
    have hnot : ¬c.isUpper := by
      simp only [Char.isUpper, decide_eq_true_eq, not_and]
      exact fun hA => absurd (UInt32.le_trans hA hd.2) (by decide)
    rw [Char.toLower_eq_of_not_isUpper hnot]
    constructor <;> rintro rfl <;> exact absurd hd.2 (by decide)
  all_goals decide

/-- Number characters never spell a named value. -/
theorem matchesWord_of_isNumberChar {cs : List Char} (h : ∀ c ∈ cs, isNumberChar c = true)
    {word : String} {w : Char} {ws : List Char} (hw : word.toList = w :: ws)
    (hwi : w = 'i' ∨ w = 'n') : Binary64.matchesWord cs word = false := by
  cases cs with
  | nil => simp [Binary64.matchesWord, hw]
  | cons c cs =>
    have hc := toLower_of_isNumberChar (h c List.mem_cons_self)
    simp only [Binary64.matchesWord, hw, List.map_cons, beq_eq_false_iff_ne, ne_eq,
      List.cons.injEq, not_and]
    intro hcw
    rcases hwi with rfl | rfl
    · exact absurd hcw hc.1
    · exact absurd hcw hc.2

/-- A text of number characters reads as a decimal literal or not at all. -/
theorem parseLiteral?_of_isNumberChar {t : String} (h : ∀ c ∈ t.toList, isNumberChar c = true) :
    Binary64.parseLiteral? t = (Binary64.parseDecimal? (Binary64.spanSign t.toList).2).map
      fun (m, e) => .decimal (Binary64.spanSign t.toList).1 m e := by
  obtain ⟨s, -, hcs⟩ := Binary64.spanSign_spec t.toList
  have hrest : ∀ c ∈ (Binary64.spanSign t.toList).2, isNumberChar c = true := fun c hc =>
    h c (hcs ▸ List.mem_append_right s hc)
  unfold Binary64.parseLiteral?
  cases hss : Binary64.spanSign t.toList with
  | mk neg rest =>
    rw [hss] at hrest
    dsimp only at hrest ⊢
    rw [matchesWord_of_isNumberChar hrest (w := 'i') rfl (.inl rfl),
      matchesWord_of_isNumberChar hrest (w := 'i') rfl (.inl rfl),
      matchesWord_of_isNumberChar hrest (w := 'n') rfl (.inr rfl)]
    rfl

/-- A number is a decimal literal of number characters. -/
theorem isNumber_iff_parseDecimal? (t : String) :
    isNumber t = true ↔ t.toList ≠ [] ∧ (∀ c ∈ t.toList, isNumberChar c = true) ∧
      (Binary64.parseDecimal? (Binary64.spanSign t.toList).2).isSome := by
  simp only [isNumber, Bool.and_eq_true, Bool.not_eq_true', String.isEmpty_eq_false_iff,
    List.all_eq_true]
  constructor
  · rintro ⟨⟨hne, hchars⟩, hlit⟩
    rw [parseLiteral?_of_isNumberChar hchars, Option.isSome_map] at hlit
    exact ⟨by simpa using hne, hchars, hlit⟩
  · rintro ⟨hne, hchars, hdec⟩
    refine ⟨⟨by simpa using hne, hchars⟩, ?_⟩
    rw [parseLiteral?_of_isNumberChar hchars, Option.isSome_map]
    exact hdec

/-- **Numbers are the decimal literals**: `[+-]?(D+ | D+ '.' D* | D* '.' D+)([eE][+-]?D+)?`. -/
theorem isNumber_iff_decimalNumber (t : String) : isNumber t = true ↔ DecimalNumber t.toList := by
  rw [isNumber_iff_parseDecimal?]
  constructor
  · rintro ⟨-, -, hdec⟩
    obtain ⟨s, hs, hcs⟩ := Binary64.spanSign_spec t.toList
    obtain ⟨m, x, hrest, hm, hx⟩ := (Binary64.parseDecimal?_isSome_iff _).1 hdec
    exact ⟨s, m, x, by rw [hcs, hrest, List.append_assoc], hs, hm, hx⟩
  · rintro ⟨s, m, x, hcs, hs, hm, hx⟩
    obtain ⟨hne, hhead⟩ := hm.head x
    refine ⟨by simp [hcs, hne], fun c hc => ?_, ?_⟩
    · rw [hcs] at hc
      simp only [List.mem_append] at hc
      rcases hc with (hc | hc) | hc
      · exact hs.isNumberChar c hc
      · exact hm.isNumberChar c hc
      · exact hx.isNumberChar c hc
    · rw [hcs, List.append_assoc, Binary64.spanSign_append hs hhead]
      exact (Binary64.parseDecimal?_isSome_iff _).2 ⟨m, x, rfl, hm, hx⟩

/-- A number reads as a decimal literal, never as a named value. -/
theorem parseLiteral?_of_isNumber {t : String} (h : isNumber t = true) :
    ∃ neg m e, Binary64.parseLiteral? t = some (.decimal neg m e) := by
  obtain ⟨-, hchars, hdec⟩ := (isNumber_iff_parseDecimal? t).1 h
  obtain ⟨⟨m, e⟩, hme⟩ := Option.isSome_iff_exists.1 hdec
  exact ⟨_, m, e, by rw [parseLiteral?_of_isNumberChar hchars, hme]; rfl⟩

example : isNumber "inf" = false ∧ isNumber "NaN" = false ∧ isNumber "0x1" = false ∧
    isNumber "1_0" = false ∧ isNumber "1.e5" = true := by decide

/-! ## The grammar of paths -/

/-- A piece of a path: an ASCII letter, an ASCII digit or `-`, then anything but a space or a
bracket. -/
def PathSegment (seg : List Char) : Prop :=
  ∃ c cs, seg = c :: cs ∧ (c.isAlpha = true ∨ c.isDigit = true ∨ c = '-') ∧
    ∀ d ∈ seg, d ≠ ' ' ∧ d ≠ '(' ∧ d ≠ ')'

/-- The pieces between slashes are those the library's splitting gives. -/
theorem splitSlash_eq_splitOn (cs : List Char) : splitSlash cs = cs.splitOn '/' := by
  induction cs with
  | nil => rfl
  | cons c cs ih =>
    rw [List.splitOn_eq_splitOnP, List.splitOnP_cons_eq_if_modifyHead, ← List.splitOn_eq_splitOnP,
      ← ih]
    by_cases hc : c = '/'
    · simp [splitSlash, hc]
    · have hne : splitSlash cs ≠ [] := by
        rw [ih, List.splitOn_eq_splitOnP]
        exact List.splitOnP_ne_nil _ _
      obtain ⟨w, ws, hw⟩ := List.exists_cons_of_ne_nil hne
      simp [splitSlash, hc, hw]

theorem not_mem_of_mem_splitSlash {cs seg : List Char} (h : seg ∈ splitSlash cs) :
    '/' ∉ seg := by
  induction cs generalizing seg with
  | nil => simp_all [splitSlash]
  | cons c cs ih =>
    by_cases hc : c = '/'
    · simp only [splitSlash, hc, if_true, List.mem_cons] at h
      rcases h with rfl | h
      · simp
      · exact ih h
    · simp only [splitSlash, hc, if_false] at h
      cases hs : splitSlash cs with
      | nil =>
        rw [hs, List.mem_singleton] at h
        subst h
        simpa using Ne.symm hc
      | cons w ws =>
        rw [hs, List.mem_cons] at h
        rcases h with rfl | h
        · simpa [Ne.symm hc] using @ih w (by simp [hs])
        · exact ih (by simp [hs, h])

/-- A start character is no space and no bracket. -/
theorem isSegmentStart_ne {c : Char} (h : isSegmentStart c = true) :
    c ≠ ' ' ∧ c ≠ '(' ∧ c ≠ ')' := by
  refine ⟨?_, ?_, ?_⟩ <;> rintro rfl <;> exact absurd h (by decide)

theorem isSegment_iff {seg : List Char} (h : '/' ∉ seg) :
    isSegment seg = true ↔ PathSegment seg := by
  cases seg with
  | nil => simp [isSegment, PathSegment]
  | cons c cs =>
    simp only [isSegment, Bool.and_eq_true, List.all_eq_true, Bool.not_eq_eq_eq_not,
      Bool.not_true, isSegmentForbidden, Bool.or_eq_false_iff, beq_eq_false_iff_ne]
    constructor
    · rintro ⟨hstart, hrest⟩
      refine ⟨c, cs, rfl, by simpa [isSegmentStart, or_assoc] using hstart, fun d hd => ?_⟩
      rcases List.mem_cons.1 hd with rfl | hd
      · exact isSegmentStart_ne hstart
      · obtain ⟨⟨⟨h₁, -⟩, h₂⟩, h₃⟩ := hrest d hd
        exact ⟨h₁, h₂, h₃⟩
    · rintro ⟨c, cs, heq, hstart, hchars⟩
      obtain ⟨rfl, rfl⟩ := List.cons.inj heq
      refine ⟨by simpa [isSegmentStart, or_assoc] using hstart, fun d hd => ?_⟩
      obtain ⟨h₁, h₂, h₃⟩ := hchars d (List.mem_cons_of_mem _ hd)
      exact ⟨⟨⟨h₁, fun hs => h (hs ▸ List.mem_cons_of_mem _ hd)⟩, h₂⟩, h₃⟩

/-- **Paths are four pieces between slashes**, each a `PathSegment`. -/
theorem isAttribute_iff_segments (t : String) :
    isAttribute t = true ↔
      (t.toList.splitOn '/').length = 4 ∧ ∀ seg ∈ t.toList.splitOn '/', PathSegment seg := by
  have hseg : ∀ seg ∈ splitSlash t.toList, isSegment seg = true ↔ PathSegment seg :=
    fun seg hseg => isSegment_iff (not_mem_of_mem_splitSlash hseg)
  rw [← splitSlash_eq_splitOn]
  unfold isAttribute
  revert hseg
  rcases splitSlash t.toList with
      _ | ⟨a, _ | ⟨b, _ | ⟨c, _ | ⟨d, _ | ⟨e, segs⟩⟩⟩⟩⟩ <;>
    simp +contextual [and_assoc]

/-! ## The classes of a body -/

/-- The test of one class, on its own. -/
def TokenKind.test : TokenKind → String → Bool
  | .lparen, t => t == "("
  | .rparen, t => t == ")"
  | .operator, t => isOperator t
  | .number, t => isNumber t
  | .attribute, t => isAttribute t

/-- The classes, in the order the classification tests them. -/
def TokenKind.all : List TokenKind := [.lparen, .rparen, .operator, .number, .attribute]

/-- **Each body passes at most one test**, the one of its class: the order of the tests never
decides a class. -/
theorem filter_test_eq_classify (t : String) :
    TokenKind.all.filter (·.test t) = (classify t).toList := by
  unfold classify
  split_ifs with h₁ h₂ h₃ h₄ h₅
  · subst h₁
    decide
  · subst h₂
    decide
  · obtain ⟨op, hop⟩ := Option.isSome_iff_exists.1 h₃
    rw [ofSymbol?_eq_some hop]
    cases op <;> decide
  · have h₅ : isAttribute t = false := by
      cases h : isAttribute t
      · rfl
      · rw [not_isNumber_of_isAttribute h] at h₄
        cases h₄
    simp [TokenKind.all, TokenKind.test, h₁, h₂, h₃, h₄, h₅]
  all_goals simp_all [TokenKind.all, TokenKind.test]

/-- **The operand grammars.** A body passes the test of its class and no other, so at most one of
`(`, `)`, operator, number and path holds of it. The numbers are the decimal literals
`[+-]?(D+ | D+ '.' D* | D* '.' D+)([eE][+-]?D+)?`, so named values, hex and `_` are no numbers; the
paths are the texts cut by `/` into exactly four pieces, each starting with an ASCII letter, an
ASCII digit or `-` and holding no space or bracket. -/
theorem operand_grammars (t : String) :
    TokenKind.all.filter (·.test t) = (classify t).toList ∧
      (isNumber t = true ↔ DecimalNumber t.toList) ∧
      (isAttribute t = true ↔ (t.toList.splitOn '/').length = 4 ∧
        ∀ seg ∈ t.toList.splitOn '/', PathSegment seg) :=
  ⟨filter_test_eq_classify t, isNumber_iff_decimalNumber t, isAttribute_iff_segments t⟩

end AttrExpr
