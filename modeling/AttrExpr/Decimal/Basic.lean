import AttrExpr.Binary64.Parts

/-!
# 96-bit decimals

A decimal is `(-1)^neg * mant / 10^scale` with a significand below `2^96` and a scale from `0`
to `28`. A zero may carry either sign.

## From binary64

A finite value `mant * 2^e` is turned into a decimal by trading each factor `2^-1` for `5 / 10`
and each `2` for `10 / 5`, keeping the significand within 96 bits:

* while factors `1/2` remain: an even significand is halved (one more power of ten); an odd one
  is multiplied by `5` if that fits, else halved, losing a bit;
* while factors `2` remain: the significand is doubled if its top bit is clear; otherwise the
  conversion fails when the powers of ten still owed are large (`2 * e10 > -e5`), and else the
  significand is divided by `5`, truncating;
* a positive power of ten is multiplied in (failing on overflow), and digits beyond the
  twenty-eighth decimal place are divided off, a remainder of `5` or more rounding up; a
  significand that reaches zero ends with scale zero;
* while the significand needs more than 52 bits and the scale is positive, one digit is
  divided off, rounding half up;
* last, trailing zeros are dropped while the scale is positive.

So `0.1` becomes `0.1` exactly, `1e-15` becomes `1 / 10^15`, and values of `2^96` and more
fail.

## To binary64

The significand is read at its own scale, trailing zeros included. A decimal of scale zero is
its integer rounded to binary64, so a zero is `+0`. Otherwise the integer part and the fraction
(its numerator rounded, divided by `10^scale` rounded) are added; a nonzero fraction makes the
sum rounded to `scale` places in binary64: `round (v * 10^scale) / 10^scale`, the rounding half
away from zero. The sign is applied last, so a negative zero of positive scale is `-0`.

## Main definitions

* `AttrExpr.Decimal` — the decimals, with `Decimal.zero`
* `Decimal.ofBinary?`, `Decimal.ofFloat?` — from binary64
* `Decimal.toFloat` — to binary64
-/

namespace AttrExpr

/-- The decimal `(-1)^neg * mant / 10^scale`, with `mant < 2^96` and `scale ≤ 28`. -/
structure Decimal where
  mant : Nat
  scale : Nat
  neg : Bool
  mant_lt : mant < Nat.pow 2 96
  scale_le : scale ≤ 28

namespace Decimal

/-- The largest scale. -/
def maxScale : Nat := 28

/-- Zero, positive, of scale zero. -/
def zero : Decimal := ⟨0, 0, false, by decide, by decide⟩

/-- A decimal from its parts, when they are in range. -/
def make? (mant scale : Nat) (neg : Bool) : Option Decimal :=
  if h : mant < Nat.pow 2 96 ∧ scale ≤ 28 then some ⟨mant, scale, neg, h.1, h.2⟩ else none

/-- A decimal from its parts with the sign of zero made positive. -/
def makeSigned? (mant scale : Nat) (neg : Bool) : Option Decimal :=
  make? mant scale (neg && mant ≠ 0)

/-- Trades `k` factors `1/2` for fives: halving an even significand or one that would outgrow
96 bits when multiplied by five, multiplying by five otherwise. -/
def absorbHalves : Nat → Nat → Int → Nat × Int
  | 0, m, e10 => (m, e10)
  | k + 1, m, e10 =>
    if m % 2 = 0 then absorbHalves k (m / 2) (e10 + 1)
    else if m * 5 < Nat.pow 2 96 then absorbHalves k (m * 5) e10
    else absorbHalves k (m / 2) (e10 + 1)

/-- Trades `k` factors `2` for `10 / 5`, `e5` counting the fives still owed (negative). -/
def absorbDoubles : Nat → Nat → Int → Int → Option (Nat × Int)
  | 0, m, e10, _ => some (m, e10)
  | k + 1, m, e10, e5 =>
    if m < Nat.pow 2 95 then absorbDoubles k (m * 2) (e10 - 1) (e5 + 1)
    else if e10 * 2 > -e5 then none
    else absorbDoubles k (m / 5) e10 (e5 + 1)

/-- Multiplies in `k` powers of ten, failing past 96 bits. -/
def scaleUp : Nat → Nat → Option Nat
  | 0, m => some m
  | k + 1, m => if m * 10 < Nat.pow 2 96 then scaleUp k (m * 10) else none

/-- Divides off `k` digits, a remainder of `5` or more rounding up; a significand that reaches
zero ends with scale zero. -/
def shedDigits : Nat → Nat → Int → Nat × Int
  | 0, m, e10 => (m, e10)
  | k + 1, m, e10 =>
    if m / 10 = 0 then (0, 0)
    else shedDigits k (m / 10 + if m % 10 ≥ 5 then 1 else 0) (e10 + 1)

/-- Divides off digits while the significand needs more than 52 bits and the power of ten is
negative, each step rounding half up. -/
def dropExcess : Nat → Nat → Int → Nat × Int
  | 0, m, e10 => (m, e10)
  | k + 1, m, e10 =>
    if e10 < 0 ∧ Nat.pow 2 52 ≤ m then
      dropExcess k (m / 10 + if m % 10 ≥ 5 then 1 else 0) (e10 + 1)
    else (m, e10)

/-- Drops trailing zeros while the scale is positive. -/
def stripZeros : Nat → Nat → Nat → Nat × Nat
  | 0, m, s => (m, s)
  | k + 1, m, s => if s > 0 ∧ m % 10 = 0 then stripZeros k (m / 10) (s - 1) else (m, s)

/-- The decimal of `(-1)^neg * mant * 2^e2` for a binary64 significand `mant`. -/
def ofBinary? (neg : Bool) (mant : Nat) (e2 : Int) : Option Decimal :=
  if mant = 0 then make? 0 0 neg else
  let start : Option (Nat × Int) :=
    if e2 < 0 then some (absorbHalves (-e2).toNat mant e2)
    else absorbDoubles e2.toNat mant e2 (-e2)
  match start with
  | none => none
  | some (m, e10) =>
    let up := if e10 > 0 then scaleUp e10.toNat m else some m
    match up with
    | none => none
    | some m =>
      let e10 := min e10 0
      let (m, e10) := if e10 < -28 then shedDigits (-28 - e10).toNat m e10 else (m, e10)
      let (m, e10) := dropExcess (-e10).toNat m e10
      let (m, s) := stripZeros (-e10).toNat m (-e10).toNat
      make? m s neg

/-- The decimal of a finite binary64 value. -/
def ofFloat? (x : Float) : Option Decimal :=
  match Binary64.decode x with
  | .finite neg mant e2 => ofBinary? neg mant e2
  | _ => none

/-- The binary64 value of a decimal; see the module documentation. -/
def toFloat (d : Decimal) : Float :=
  if d.scale = 0 then Binary64.ofRatio (d.neg && d.mant ≠ 0) d.mant 1
  else
    let p := Nat.pow 10 d.scale
    let frac := Binary64.ofNat (d.mant % p) / Binary64.ofNat p
    let whole := Binary64.ofNat (d.mant / p)
    let v :=
      if frac == 0 then whole
      else
        let pf := Binary64.ofNat p
        ((whole + frac) * pf).round / pf
    if d.neg then -v else v

end Decimal

end AttrExpr
