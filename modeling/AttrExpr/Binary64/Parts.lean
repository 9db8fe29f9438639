/-!
# Binary64 values by their parts

A binary64 value is read off its 64 bits: one sign bit, eleven exponent bits and 52 fraction
bits. A finite value is `(-1)^neg * mant * 2^exp` with a natural significand `mant`; the
largest exponent field stands for infinity (fraction zero) or not-a-number.

Going the other way, a positive rational `num / den` is rounded to the nearest binary64 value,
a tie going to the even significand, and a value beyond the largest finite one becoming
infinity. This one rounding serves every conversion the library makes from exact numbers:
integers, decimal literals and the ratio of two integers.

## Main definitions

* `AttrExpr.Binary64.Decoded`, `AttrExpr.Binary64.decode` — the parts of a value
* `AttrExpr.Binary64.roundBits` — the bits nearest to a positive ratio
* `AttrExpr.Binary64.ofRatio`, `ofNat`, `ofScientific` — exact numbers rounded to binary64
* `AttrExpr.Binary64.Bits` — a value by its bit pattern, which keeps the sign of a not-a-number
* `AttrExpr.Binary64.hexBits` — the bit pattern as sixteen lowercase hex digits
-/

namespace AttrExpr.Binary64

/-- The parts of a binary64 value. A finite value is `(-1)^neg * mant * 2^exp`. -/
inductive Decoded where
  | nan
  | infinite (neg : Bool)
  | finite (neg : Bool) (mant : Nat) (exp : Int)
  deriving Repr, DecidableEq

/-- The parts of the value whose bit pattern is `b`. -/
def decodeBits (b : Nat) : Decoded :=
  let neg : Bool := b / Nat.pow 2 63 % 2 == 1
  let field : Nat := b / Nat.pow 2 52 % Nat.pow 2 11
  let frac : Nat := b % Nat.pow 2 52
  if field == 2047 then
    if frac == 0 then .infinite neg else .nan
  else if field == 0 then .finite neg frac (-1074)
  else .finite neg (frac + Nat.pow 2 52) ((field : Int) - 1075)

/-- The parts of a binary64 value. -/
def decode (x : Float) : Decoded := decodeBits x.toBits.toNat

/-- A value is finite when it is neither infinite nor not-a-number. -/
def isFinite (x : Float) : Bool :=
  match decode x with
  | .finite .. => true
  | _ => false

/-- The sign bit of a value. -/
def signBit (x : Float) : Bool := x.toBits.toNat / Nat.pow 2 63 % 2 == 1

/-- Whether `num / den ≥ 2 ^ k`, decided in natural numbers. -/
def ratioAtLeastPow2 (num den : Nat) (k : Int) : Bool :=
  decide (den * Nat.pow 2 k.toNat ≤ num * Nat.pow 2 (-k).toNat)

/-- The exponent of the highest power of two at most `num / den`, for `num, den > 0`. -/
def ratioLog2 (num den : Nat) : Int :=
  let guess : Int := (num.log2 : Int) - (den.log2 : Int)
  if ratioAtLeastPow2 num den guess then guess else guess - 1

/-- The ratio `num / den` rounded to an integer, a tie going to the even one. -/
def roundHalfEven (num den : Nat) : Nat :=
  let q := num / den
  let r := num % den
  if 2 * r > den || (2 * r == den && q % 2 == 1) then q + 1 else q

/-- The bit pattern of infinity, sign bit clear. -/
def infBits : Nat := 2047 * Nat.pow 2 52

/-- The bits (sign bit clear) of the binary64 value nearest to `num / den`, for `den > 0`: the
significand is rounded half to even, a value past the largest finite one is infinity, and
values below the smallest normal are rounded on the subnormal grid `2 ^ -1074`. -/
def roundBits (num den : Nat) : Nat :=
  if num = 0 then 0 else
  let e := ratioLog2 num den
  if e < -1022 then
    -- Subnormal grid: a carry into 2^52 is exactly the smallest normal's pattern.
    roundHalfEven (num * Nat.pow 2 1074) den
  else
    let sh := 52 - e
    let q := roundHalfEven (num * Nat.pow 2 sh.toNat) (den * Nat.pow 2 (-sh).toNat)
    let (q, e) := if q = Nat.pow 2 53 then (Nat.pow 2 52, e + 1) else (q, e)
    if e > 1023 then infBits else (e + 1023).toNat * Nat.pow 2 52 + (q - Nat.pow 2 52)

/-- A bit pattern with the sign bit set when `neg` holds. -/
def signed (neg : Bool) (bits : Nat) : Nat := (if neg then Nat.pow 2 63 else 0) + bits

/-- The binary64 value nearest to `(-1)^neg * num / den`. -/
def ofRatio (neg : Bool) (num den : Nat) : Float :=
  Float.ofBits (UInt64.ofNat (signed neg (roundBits num den)))

/-- Infinity with the given sign. -/
def infinity (neg : Bool) : Float :=
  Float.ofBits (UInt64.ofNat (signed neg infBits))

/-- The binary64 value nearest to a natural number. -/
def ofNat (n : Nat) : Float := ofRatio false n 1

/-- The number of decimal digits of `n`, zero having none. -/
def digitCount (n : Nat) : Nat :=
  if n = 0 then 0 else (Nat.toDigits 10 n).length

/-- The pattern of the binary64 value nearest to `(-1)^neg * m * 10^e`. Literals whose leading
digit sits above `10^310` are infinite and those whose digits all lie below `10^-325` are zero,
which is where the nearest value already is infinity or zero; only the others are computed
exactly. -/
def scientificBits (neg : Bool) (m : Nat) (e : Int) : Nat :=
  let top := (digitCount m : Int) + e
  if m = 0 || top < -325 then signed neg 0
  else if top > 310 then signed neg infBits
  else if e ≥ 0 then signed neg (roundBits (m * Nat.pow 10 e.toNat) 1)
  else signed neg (roundBits m (Nat.pow 10 (-e).toNat))

/-- The binary64 value nearest to `(-1)^neg * m * 10^e`, as `scientificBits` finds it. -/
def ofScientific (neg : Bool) (m : Nat) (e : Int) : Float :=
  Float.ofBits (UInt64.ofNat (scientificBits neg m e))

/-- A binary64 value by its bit pattern. A `Float` shows every not-a-number with the same
pattern; a `Bits` keeps the one it was given, the sign bit included. -/
structure Bits where
  val : UInt64
  deriving Repr, DecidableEq

/-- The pattern of a `Float`. -/
def Bits.ofFloat (x : Float) : Bits := ⟨x.toBits⟩

/-- The `Float` with a pattern. -/
def Bits.toFloat (b : Bits) : Float := Float.ofBits b.val

/-- Sixteen lowercase hex digits of a bit pattern. -/
def Bits.hex (b : Bits) : String :=
  let digits := Nat.toDigits 16 b.val.toNat
  String.ofList (List.replicate (16 - digits.length) '0' ++ digits)

/-- Sixteen lowercase hex digits of the bit pattern of a `Float`. -/
def hexBits (x : Float) : String := (Bits.ofFloat x).hex

example : roundBits 1 1 = 0x3FF0000000000000 := by decide
example : roundBits 1 10 = 0x3FB999999999999A := by decide

end AttrExpr.Binary64
