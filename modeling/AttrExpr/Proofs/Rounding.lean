import AttrExpr.Binary64.Read
import Mathlib

/-!
# Decimal literals round to finite values or infinities

A decimal literal `m * 10^e` is rounded once to binary64 (`Binary64.scientificBits`). The
rounding lands on a finite pattern, or on infinity when the value is past the largest finite
one; it never builds a not-a-number. Two facts give this. The exponent `ratioLog2` picks for a
ratio bounds it from above, `num / den < 2 ^ (ratioLog2 num den + 1)`, so the significand rounds
to at most `2 ^ 53` (at most `2 ^ 52` below the smallest normal value), and a pattern is put
together only when its exponent is in range. And a pattern whose exponent field is not all ones
is kept as it is when read as a `Float`.

## Main results

* `Binary64.ratio_lt_ratioLog2` — the exponent of a ratio bounds it from above
* `Binary64.roundBits_le_infBits` — a rounded ratio is at most infinity's pattern
* `Binary64.toBits_ofBits` — a pattern that is no not-a-number is kept
* `Binary64.Literal.isFinite_or_eq_infinity` — a decimal literal reads as a finite value or as an
  infinity of its sign
-/

namespace AttrExpr.Binary64

/-! ## The exponent of a ratio -/

theorem two_pow_toNat_div (k : ℤ) : (2 : ℚ) ^ k.toNat / 2 ^ (-k).toNat = 2 ^ k := by
  rw [← zpow_natCast, ← zpow_natCast, ← zpow_sub₀ two_ne_zero, Int.toNat_sub_toNat_neg]

/-- The test `ratioAtLeastPow2` compares the ratio with a power of two. -/
theorem ratioAtLeastPow2_iff {num den : Nat} (hd : 0 < den) (k : ℤ) :
    ratioAtLeastPow2 num den k = true ↔ (2 : ℚ) ^ k ≤ num / den := by
  have hd' : (0 : ℚ) < den := by exact_mod_cast hd
  have hp : (0 : ℚ) < 2 ^ (-k).toNat := by positivity
  rw [← two_pow_toNat_div, div_le_div_iff₀ hp hd', ratioAtLeastPow2, decide_eq_true_iff,
    Nat.pow_eq, Nat.pow_eq]
  constructor
  · intro h
    rw [mul_comm]
    exact_mod_cast h
  · intro h
    rw [mul_comm] at h
    exact_mod_cast h

/-- The exponent found for a ratio bounds it from above: the guess `log2 num - log2 den` is at
most one too large, and the test takes one off when it is. -/
theorem ratio_lt_ratioLog2 {num den : Nat} (hd : 0 < den) :
    (num : ℚ) / den < 2 ^ (ratioLog2 num den + 1) := by
  have hd' : (0 : ℚ) < den := by exact_mod_cast hd
  unfold ratioLog2
  dsimp only
  split
  · -- num < 2 ^ (log2 num + 1) and 2 ^ log2 den ≤ den
    have hnum : (num : ℚ) < 2 ^ (num.log2 + 1) := by exact_mod_cast Nat.lt_log2_self
    have hden : (2 : ℚ) ^ den.log2 ≤ den := by exact_mod_cast Nat.log2_self_le hd.ne'
    calc (num : ℚ) / den < 2 ^ (num.log2 + 1) / 2 ^ den.log2 := by
          exact div_lt_div₀ hnum hden (by positivity) (by positivity)
      _ = 2 ^ ((num.log2 : ℤ) - den.log2 + 1) := by
          rw [← zpow_natCast, ← zpow_natCast, ← zpow_sub₀ two_ne_zero]
          congr 1
          push_cast
          ring
  · rename_i h
    rw [sub_add_cancel]
    exact lt_of_not_ge fun hle => h ((ratioAtLeastPow2_iff hd _).2 hle)

/-! ## Rounding stays in range -/

/-- Rounding `N / D` to an integer gives at most `k` when `N / D < k`. -/
theorem roundHalfEven_le {N D k : Nat} (h : N < k * D) : roundHalfEven N D ≤ k := by
  have hD : 0 < D := Nat.pos_of_ne_zero fun hD => by simp [hD] at h
  have hq : N / D < k := (Nat.div_lt_iff_lt_mul hD).2 h
  unfold roundHalfEven
  dsimp only
  split <;> omega

/-- A ratio below `2 ^ k`, scaled by `2 ^ s / 2 ^ t`, rounds to at most `2 ^ j` when
`k + s - t ≤ j`. -/
theorem roundHalfEven_scaled_le {num den : Nat} {k : ℤ} (hd : 0 < den)
    (h : (num : ℚ) / den < 2 ^ k) {s t j : Nat} (hj : k + s - t ≤ j) :
    roundHalfEven (num * Nat.pow 2 s) (den * Nat.pow 2 t) ≤ Nat.pow 2 j := by
  have hd' : (0 : ℚ) < den := by exact_mod_cast hd
  have hscaled : (num : ℚ) / den * (2 ^ s / 2 ^ t) < 2 ^ j :=
    calc (num : ℚ) / den * (2 ^ s / 2 ^ t) = (num : ℚ) / den * 2 ^ ((s : ℤ) - t) := by
          rw [zpow_sub₀ two_ne_zero, zpow_natCast, zpow_natCast]
      _ < 2 ^ k * 2 ^ ((s : ℤ) - t) := by gcongr
      _ = 2 ^ (k + s - t) := by rw [← zpow_add₀ two_ne_zero, add_sub_assoc]
      _ ≤ 2 ^ (j : ℤ) := zpow_le_zpow_right₀ one_le_two hj
      _ = 2 ^ j := zpow_natCast 2 j
  rw [div_mul_div_comm, div_lt_iff₀ (by positivity)] at hscaled
  apply roundHalfEven_le
  simp only [Nat.pow_eq]
  exact_mod_cast (by linarith : (num : ℚ) * 2 ^ s < 2 ^ j * (den * 2 ^ t))

/-- A ratio rounds to a pattern no larger than infinity's. -/
theorem roundBits_le_infBits (num : Nat) {den : Nat} (hd : 0 < den) :
    roundBits num den ≤ infBits := by
  have hr : (num : ℚ) / den < 2 ^ (ratioLog2 num den + 1) := ratio_lt_ratioLog2 hd
  unfold roundBits
  split
  · exact Nat.zero_le _
  dsimp only
  split
  · rename_i hsub
    -- below the smallest normal value the significand is at most `2 ^ 52`
    rw [← Nat.mul_one den]
    refine Nat.le_trans ?_ (show Nat.pow 2 52 ≤ infBits by decide)
    apply roundHalfEven_scaled_le (t := 0) hd hr
    omega
  · rename_i hnorm
    have hq := roundHalfEven_scaled_le hd hr (s := (52 - ratioLog2 num den).toNat)
      (t := (-(52 - ratioLog2 num den)).toNat) (j := 53) (by omega)
    -- a significand rounded up to `2 ^ 53` moves to the next exponent
    split
    all_goals
      dsimp only
      split
      · exact Nat.le_refl _
      · simp only [infBits, Nat.pow_eq] at hq ⊢
        omega


/-- A decimal literal rounds to a signed pattern no larger than infinity's. -/
theorem scientificBits_eq_signed (neg : Bool) (m : Nat) (e : ℤ) :
    ∃ b ≤ infBits, scientificBits neg m e = signed neg b := by
  unfold scientificBits
  dsimp only
  split
  · exact ⟨0, Nat.zero_le _, rfl⟩
  split
  · exact ⟨infBits, Nat.le_refl _, rfl⟩
  split
  · exact ⟨_, roundBits_le_infBits _ Nat.one_pos, rfl⟩
  · exact ⟨_, roundBits_le_infBits _ (Nat.pow_pos (by decide)), rfl⟩

/-! ## Patterns read as values -/

open Float.Model.UnpackedFloat in
theorem unpackExponent_toNat (b : BitVec 64) :
    (@unpackExponent Float.Model.Format.binary64 b).toNat =
      b.toNat / Nat.pow 2 52 % Nat.pow 2 11 := by
  simp [unpackExponent, BitVec.extractLsb_toNat, Nat.shiftRight_eq_div_pow]

open Float.Model.UnpackedFloat in
theorem unpackMantissa_toNat (b : BitVec 64) :
    (@unpackMantissa Float.Model.Format.binary64 b).toNat = b.toNat % Nat.pow 2 52 := by
  simp [unpackMantissa, BitVec.extractLsb_toNat]

/-- A pattern that is no not-a-number is kept as it is. -/
theorem toBits_ofBits {u : UInt64}
    (h : u.toNat / Nat.pow 2 52 % Nat.pow 2 11 ≠ 2047 ∨ u.toNat % Nat.pow 2 52 = 0) :
    (Float.ofBits u).toBits = u := by
  have hnan : ¬@Float.Model.UnpackedFloat.isNaNBits Float.Model.Format.binary64
      u.toBitVec := by
    simp only [Float.Model.UnpackedFloat.isNaNBits, decide_eq_true_eq, not_and, not_not]
    intro hexp
    have := congrArg BitVec.toNat hexp
    rw [unpackExponent_toNat] at this
    apply BitVec.eq_of_toNat_eq
    rw [unpackMantissa_toNat]
    simp only [UInt64.toNat_toBitVec] at this ⊢
    rw [show (-1#11).toNat = 2047 from rfl] at this
    rw [BitVec.toNat_zero]
    omega
  apply UInt64.toBitVec_inj.mp
  show Float.Model.UnpackedFloat.pack Float.Model.Format.binary64
    (Float.Model.UnpackedFloat.unpack Float.Model.Format.binary64 u.toBitVec) = u.toBitVec
  rw [Float.Model.UnpackedFloat.pack_unpack, if_neg hnan]


/-- A pattern whose exponent field is not all ones decodes to a finite value. -/
theorem decodeBits_finite {n : Nat} (h : n / Nat.pow 2 52 % Nat.pow 2 11 ≠ 2047) :
    ∃ neg mant exp, decodeBits n = .finite neg mant exp := by
  unfold decodeBits
  dsimp only
  rw [if_neg (by simpa using h)]
  split <;> exact ⟨_, _, _, rfl⟩

/-- A signed pattern below infinity's is a finite value. -/
theorem isFinite_ofBits_signed (neg : Bool) {b : Nat} (hb : b < infBits) :
    isFinite (Float.ofBits (UInt64.ofNat (signed neg b))) = true := by
  have hfield : signed neg b / Nat.pow 2 52 % Nat.pow 2 11 ≠ 2047 := by
    simp only [signed, infBits, Nat.pow_eq] at hb ⊢
    split <;> omega
  have htoNat : (UInt64.ofNat (signed neg b)).toNat = signed neg b := by
    apply UInt64.toNat_ofNat_of_lt
    simp only [signed, infBits, UInt64.size, Nat.pow_eq] at hb ⊢
    split <;> omega
  obtain ⟨_, _, _, hdec⟩ := decodeBits_finite hfield
  unfold isFinite decode
  rw [toBits_ofBits (.inl (by rw [htoNat]; exact hfield)), htoNat, hdec]

theorem isFinite_infinity (neg : Bool) : isFinite (infinity neg) = false := by
  cases neg <;> decide

/-- **A decimal literal reads as a finite value or as an infinity of its sign**, never as a
not-a-number. -/
theorem Literal.isFinite_or_eq_infinity (neg : Bool) (m : Nat) (e : ℤ) :
    isFinite (Literal.decimal neg m e).toFloat = true ∨
      (Literal.decimal neg m e).toFloat = Binary64.infinity neg := by
  obtain ⟨b, hb, hbits⟩ := scientificBits_eq_signed neg m e
  have hx : (Literal.decimal neg m e).toFloat = Float.ofBits (UInt64.ofNat (signed neg b)) := by
    rw [Literal.toFloat, Literal.bits, hbits]
    rfl
  rcases Nat.lt_or_eq_of_le hb with hlt | rfl
  · exact .inl (hx ▸ isFinite_ofBits_signed neg hlt)
  · exact .inr hx

end AttrExpr.Binary64
