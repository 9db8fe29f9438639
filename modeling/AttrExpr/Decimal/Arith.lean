import AttrExpr.Decimal.Basic

/-!
# Decimal arithmetic

Sums, differences, products and quotients are exact when they fit: a significand below `2^96`
at a scale of at most `28`. Otherwise the exact result is rounded half to even to the largest
scale at which it fits; when not even scale zero fits, the operation fails.

* Sums are exact at the larger scale of the two operands, and a zero sum is positive. A zero
  operand gives the other one back, negated when it is subtracted.
* A product has the sum of the scales. A product with a zero factor is zero, positive, of scale
  zero. When both significands are below `2^32`, a product past scale `47` is zero and a zero
  product is positive; otherwise a product rounded to zero keeps its sign.
* A quotient starts at the difference of the scales and takes up to nine more digits at a time,
  as many as keep the significand within 96 bits, until it is exact or no digit fits; the last
  remainder rounds it half to even. A negative starting scale must reach zero. If any remainder
  was left on the way, up to seven trailing zeros are dropped: four, then two, then one, each
  only when all of them are there.

## Main definitions

* `AttrExpr.Decimal.fitRounded` — an exact result brought into range
* `Decimal.add?`, `Decimal.sub?`, `Decimal.mul?`, `Decimal.div?`
-/

namespace AttrExpr.Decimal

open Binary64 (roundHalfEven)

/-- The exact magnitude `v / 10^s` rounded to the largest scale at most `s` and `28` whose
rounded significand fits in 96 bits; `d` is the number of digits dropped so far. -/
def fitFrom (v s d : Nat) : Nat → Option (Nat × Nat)
  | 0 => none
  | fuel + 1 =>
    if d > s then none
    else
      let q := roundHalfEven v (Nat.pow 10 d)
      if q < Nat.pow 2 96 then some (q, s - d) else fitFrom v s (d + 1) fuel

/-- The exact result `(-1)^neg * v / 10^s` brought into range, a zero made positive. -/
def fitRounded (neg : Bool) (v s : Nat) : Option Decimal :=
  match fitFrom v s (s - 28) (s + 2) with
  | some (q, s') => makeSigned? q s' neg
  | none => none

/-- The signed significand at a larger scale. -/
def signedAt (d : Decimal) (s : Nat) : Int :=
  let m : Int := d.mant * Nat.pow 10 (s - d.scale)
  if d.neg then -m else m

/-- The sum `a + b`, or the difference `a - b` when `subtract`. -/
def addSub? (a b : Decimal) (subtract : Bool) : Option Decimal :=
  if a.mant = 0 then
    if subtract && b.mant ≠ 0 then make? b.mant b.scale (!b.neg) else some b
  else if b.mant = 0 then some a
  else
    let s := max a.scale b.scale
    let v := if subtract then signedAt a s - signedAt b s else signedAt a s + signedAt b s
    fitRounded (v < 0) v.natAbs s

/-- The sum, if it can be represented. -/
def add? (a b : Decimal) : Option Decimal := addSub? a b false

/-- The difference, if it can be represented. -/
def sub? (a b : Decimal) : Option Decimal := addSub? a b true

/-- The product, if it can be represented. Two significands below `2^32` give a product below
`2^64`, rounded half to even to scale `28` at most, zero past scale `47`, and positive when
zero; otherwise the product is brought into range keeping its sign, also when it rounds to
zero. -/
def mul? (a b : Decimal) : Option Decimal :=
  if a.mant = 0 ∨ b.mant = 0 then some zero
  else
    let neg := a.neg != b.neg
    let p := a.mant * b.mant
    let s := a.scale + b.scale
    if a.mant < Nat.pow 2 32 ∧ b.mant < Nat.pow 2 32 then
      if s ≤ 28 then makeSigned? p s neg
      else if s > 47 then some zero
      else makeSigned? (roundHalfEven p (Nat.pow 10 (s - 28))) 28 neg
    else
      match fitFrom p s (s - 28) (s + 2) with
      | some (q, s') => make? q s' neg
      | none => none

/-- The most digits, up to nine, that the significand `q` can take on at scale `scale` and still
fit in 96 bits, never passing scale 28; `none` when fewer than nine fit and they do not bring a
negative scale to zero. -/
def digitRoom (q : Nat) (scale : Int) : Option Nat :=
  let fits := (List.range 10).filter fun k => q * Nat.pow 10 k < Nat.pow 2 96
  let x := fits.foldl max 0
  let x := if scale > 19 then min x (28 - scale).toNat else x
  if x = 9 then some 9
  else if (x : Int) + scale < 0 then none
  else some x

/-- The quotient `q / 10` rounded half to even, a nonzero `sticky` remainder below counting as
above half. -/
def dropDigit (q : Nat) (sticky : Bool) : Nat :=
  let r := q % 10
  if r > 5 ∨ (r = 5 ∧ (sticky ∨ q / 10 % 2 = 1)) then q / 10 + 1 else q / 10

/-- The quotient loop: `q` the quotient so far at `scale`, `r` the remainder over `den`,
`inexact` whether a remainder was ever left. -/
def divLoop (den : Nat) : Nat → Nat → Int → Bool → Nat → Option (Nat × Int × Bool)
  | 0, _, _, _, _ => none
  | fuel + 1, q, scale, inexact, r =>
    let step : Option Nat :=
      if r = 0 then (if scale ≥ 0 then some 0 else some (min 9 (-scale).toNat))
      else if scale = 28 then some 0
      else digitRoom q scale
    match step with
    | none => none
    | some 0 =>
      if r = 0 then some (q, scale, inexact)
      else
        -- No digit fits: round by the remainder.
        if 2 * r > den ∨ (2 * r = den ∧ q % 2 = 1) then
          if q + 1 < Nat.pow 2 96 then some (q + 1, scale, true)
          else if scale - 1 < 0 then none
          else some (dropDigit (q + 1) true, scale - 1, true)
        else some (q, scale, true)
    | some k =>
      let inexact := inexact || r ≠ 0
      let scaled := q * Nat.pow 10 k
      if scaled ≥ Nat.pow 2 96 then none
      else
        let rs := r * Nat.pow 10 k
        let q' := scaled + rs / den
        let r' := rs % den
        if q' ≥ Nat.pow 2 96 then
          if scale + k - 1 < 0 then none
          else some (dropDigit q' (r' ≠ 0), scale + k - 1, inexact)
        else divLoop den fuel q' (scale + k) inexact r'

/-- Drops `k` trailing zeros at once, when the significand has them and the scale allows. -/
def dropZeros (k : Nat) : Nat × Nat → Nat × Nat
  | (q, s) => if k ≤ s ∧ q % Nat.pow 10 k = 0 then (q / Nat.pow 10 k, s - k) else (q, s)

/-- The quotient, if the divisor is nonzero and the quotient can be represented. -/
def div? (a b : Decimal) : Option Decimal :=
  if b.mant = 0 then none
  else if a.mant = 0 then some zero
  else
    match divLoop b.mant 64 (a.mant / b.mant) ((a.scale : Int) - b.scale) false
        (a.mant % b.mant) with
    | none => none
    | some (q, scale, inexact) =>
      let s := scale.toNat
      let (q, s) := if inexact then dropZeros 1 (dropZeros 2 (dropZeros 4 (q, s))) else (q, s)
      makeSigned? q s (a.neg != b.neg)

end AttrExpr.Decimal
