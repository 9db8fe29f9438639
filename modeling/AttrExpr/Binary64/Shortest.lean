import AttrExpr.Binary64.Parts

/-!
# Shortest decimal digits of a binary64 value

A positive finite value `v = mant * 2^exp` is the nearest binary64 value of every real in its
*rounding interval*: half the gap to each neighbour on either side, the ends included exactly
when `mant` is even (a tie reads back to the even significand). Below a power of two the gap to
the lower neighbour is half as wide, except at the smallest exponent.

The shortest digits of `v` are the fewest significant decimal digits `c * 10^k` that fall in
that interval, and of two such candidates the one nearer to `v`. For `n = 1, 2, …` digits the
only candidates on the grid `10^k` with `k = ⌊log₁₀ v⌋ - n + 1` worth testing are the two grid
points around `v`: any grid point inside the interval lies between them and `v`, or is one of
them. Seventeen digits always suffice. An exact tie between the two is settled by a parameter.

All arithmetic is on natural numbers: a comparison of `a * 2^e` with `c * 10^k` moves the
negative powers to the other side.

## Main definitions

* `AttrExpr.Binary64.Interval`, `roundingInterval` — the reals that read back as `v`
* `AttrExpr.Binary64.floorLog10` — `⌊log₁₀ v⌋`
* `AttrExpr.Binary64.shortestDigits` — digits and power of ten, without trailing zeros
-/

namespace AttrExpr.Binary64

/-- Whether `a * 2^e ≤ c * 10^k`, in natural numbers. -/
def pow2LePow10 (a : Nat) (e : Int) (c : Nat) (k : Int) : Bool :=
  decide (a * Nat.pow 2 e.toNat * Nat.pow 10 (-k).toNat ≤
    c * Nat.pow 10 k.toNat * Nat.pow 2 (-e).toNat)

/-- Whether `c * 10^k ≤ a * 2^e`, in natural numbers. -/
def pow10LePow2 (c : Nat) (k : Int) (a : Nat) (e : Int) : Bool :=
  decide (c * Nat.pow 10 k.toNat * Nat.pow 2 (-e).toNat ≤
    a * Nat.pow 2 e.toNat * Nat.pow 10 (-k).toNat)

/-- The rounding interval of a positive value, in quarter units `2^(exp - 2)`: the value is
`4 * mant` units, the ends `low` and `high` units, included when `closed`. -/
structure Interval where
  mant : Nat
  exp : Int
  low : Nat
  high : Nat
  closed : Bool

/-- The rounding interval of `mant * 2^exp`, a finite binary64 value with `mant > 0`. -/
def roundingInterval (mant : Nat) (exp : Int) : Interval where
  mant := mant
  exp := exp
  low := if mant = Nat.pow 2 52 ∧ exp > -1074 then 4 * mant - 1 else 4 * mant - 2
  high := 4 * mant + 2
  closed := mant % 2 == 0

/-- Whether `c * 10^k` lies in the interval. -/
def Interval.contains (iv : Interval) (c : Nat) (k : Int) : Bool :=
  let e := iv.exp - 2
  if iv.closed then pow2LePow10 iv.low e c k && pow10LePow2 c k iv.high e
  else !(pow10LePow2 c k iv.low e) && !(pow2LePow10 iv.high e c k)

/-- The exponent `⌊log₁₀ (mant * 2^exp)⌋` for `mant > 0`: a first guess from the binary
exponent, moved to the power of ten just at or below the value. -/
def floorLog10 (mant : Nat) (exp : Int) : Int :=
  let bits : Int := (mant.log2 : Int) + exp
  let guess : Int := (bits * 78913) / 262144
  let below := fun (k : Int) => pow10LePow2 1 k mant exp
  if !below guess then guess - 1
  else if below (guess + 1) then guess + 1
  else guess

/-- How an exact tie between the two nearest shortest candidates is settled. -/
inductive Tie where
  | up
  | even
  deriving Repr, DecidableEq

/-- Removes trailing zeros: `c * 10^k` with `c` not a multiple of ten (for `c > 0`). -/
def stripZeros (c : Nat) (k : Int) (fuel : Nat) : Nat × Int :=
  match fuel with
  | 0 => (c, k)
  | fuel + 1 => if c ≠ 0 ∧ c % 10 = 0 then stripZeros (c / 10) (k + 1) fuel else (c, k)

/-- The nearer in-interval candidate on the grid `10^k`, if one of the two neighbours of the
value is in the interval. -/
def Interval.pick (iv : Interval) (tie : Tie) (k : Int) : Option Nat :=
  let e := iv.exp - 2
  -- cLo = ⌊v / 10^k⌋ with v = 4 * mant * 2^e
  let num := 4 * iv.mant * Nat.pow 2 e.toNat * Nat.pow 10 (-k).toNat
  let den := Nat.pow 10 k.toNat * Nat.pow 2 (-e).toNat
  let cLo := num / den
  let cHi := cLo + 1
  match iv.contains cLo k, iv.contains cHi k with
  | false, false => none
  | true, false => some cLo
  | false, true => some cHi
  | true, true =>
    -- compare 2v with (cLo + cHi) * 10^k
    let twice := 2 * num
    let mid := (cLo + cHi) * den
    if twice < mid then some cLo
    else if twice > mid then some cHi
    else match tie with
      | .up => some cHi
      | .even => some (if cLo % 2 == 0 then cLo else cHi)

/-- The first grid, from `n` digits on, with a candidate; at most `fuel` grids are tried. -/
def Interval.search (iv : Interval) (tie : Tie) (top : Int) (n : Nat) : Nat → Nat × Int
  | 0 => (iv.mant, iv.exp)
  | fuel + 1 =>
    let k := top - n + 1
    match iv.pick tie k with
    | some c => (c, k)
    | none => iv.search tie top (n + 1) fuel

/-- The shortest digits of `mant * 2^exp` (`mant > 0`) as `(c, k)` with value `c * 10^k`, `c`
free of trailing zeros. -/
def shortestDigits (tie : Tie) (mant : Nat) (exp : Int) : Nat × Int :=
  let iv := roundingInterval mant exp
  let (c, k) := iv.search tie (floorLog10 mant exp) 1 17
  stripZeros c k 20

end AttrExpr.Binary64
