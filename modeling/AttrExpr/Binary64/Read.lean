import AttrExpr.Binary64.Parts

/-!
# Reading binary64 literals

The literal grammar read here is

```
literal  ::= sign? (infinity | nan | decimal)
sign     ::= '+' | '-'
infinity ::= "inf" | "infinity"          (any case)
nan      ::= "nan"                       (any case)
decimal  ::= digits ('.' digits?)? exponent? | '.' digits exponent?
exponent ::= ('e' | 'E') sign? digits
```

with `digits` one or more ASCII digits. Nothing else is accepted: no blanks, no `_`, no hex.
A decimal literal denotes `m * 10^e` exactly and is rounded once to the nearest binary64
value (`AttrExpr.Binary64.ofScientific`), so `1e400` reads as infinity and `1e-400` as zero.
The sign applies to every form: `-nan` is the quiet not-a-number with its sign bit set.

## Main definitions

* `AttrExpr.Binary64.Literal` — what a literal denotes before rounding
* `AttrExpr.Binary64.parseLiteral?` — the grammar above
* `AttrExpr.Binary64.readBits?`, `AttrExpr.Binary64.readFloat?` — a literal read and rounded
-/

namespace AttrExpr.Binary64

/-- What a literal denotes: a signed not-a-number, an infinity, or `(-1)^neg * mant * 10^exp`. -/
inductive Literal where
  | nan (neg : Bool)
  | infinity (neg : Bool)
  | decimal (neg : Bool) (mant : Nat) (exp : Int)
  deriving Repr, DecidableEq

/-- The value of a run of decimal digits. -/
def digitsValue (ds : List Char) : Nat :=
  ds.foldl (fun acc d => 10 * acc + (d.toNat - '0'.toNat)) 0

/-- Splits off the leading ASCII digits. -/
def spanDigits (cs : List Char) : List Char × List Char :=
  (cs.takeWhile Char.isDigit, cs.dropWhile Char.isDigit)

/-- An optional sign: `true` for `-`. -/
def spanSign : List Char → Bool × List Char
  | '-' :: cs => (true, cs)
  | '+' :: cs => (false, cs)
  | cs => (false, cs)

/-- An exponent part `('e' | 'E') sign? digits`, the whole rest of the literal. -/
def parseExponent? : List Char → Option Int
  | [] => some 0
  | c :: cs =>
    if c == 'e' || c == 'E' then
      let (neg, rest) := spanSign cs
      let (ds, tail) := spanDigits rest
      if ds.isEmpty || !tail.isEmpty then none
      else some (if neg then -(digitsValue ds : Int) else digitsValue ds)
    else none

/-- The unsigned decimal part: digits with an optional point, at least one digit in all, and an
optional exponent. The result is the significand and the power of ten. -/
def parseDecimal? (cs : List Char) : Option (Nat × Int) :=
  let (whole, rest) := spanDigits cs
  let (frac, rest) := match rest with
    | '.' :: more => spanDigits more
    | _ => ([], rest)
  if whole.isEmpty && frac.isEmpty then none
  else (parseExponent? rest).map fun e => (digitsValue (whole ++ frac), e - frac.length)

/-- ASCII case-insensitive comparison with a lowercase word. -/
def matchesWord (cs : List Char) (word : String) : Bool :=
  cs.map Char.toLower == word.toList

/-- The grammar of literals. -/
def parseLiteral? (s : String) : Option Literal :=
  let (neg, rest) := spanSign s.toList
  if matchesWord rest "inf" || matchesWord rest "infinity" then some (.infinity neg)
  else if matchesWord rest "nan" then some (.nan neg)
  else (parseDecimal? rest).map fun (m, e) => .decimal neg m e

/-- The bit pattern of the quiet not-a-number. -/
def quietNaNBits : Nat := 0x7FF8000000000000

/-- The pattern of the binary64 value a literal denotes, rounded once. -/
def Literal.bits : Literal → Bits
  | .nan neg => ⟨UInt64.ofNat (signed neg quietNaNBits)⟩
  | .infinity neg => ⟨UInt64.ofNat (signed neg infBits)⟩
  | .decimal neg m e => ⟨UInt64.ofNat (scientificBits neg m e)⟩

/-- The binary64 value a literal denotes, rounded once. -/
def Literal.toFloat (l : Literal) : Float := l.bits.toFloat

/-- Reads a literal as a bit pattern; `none` when the text is not one. -/
def readBits? (s : String) : Option Bits := (parseLiteral? s).map Literal.bits

/-- Reads a literal; `none` when the text is not one. -/
def readFloat? (s : String) : Option Float := (parseLiteral? s).map Literal.toFloat

example : parseLiteral? "1." = some (.decimal false 1 0) := by decide
example : parseLiteral? ".5" = some (.decimal false 5 (-1)) := by decide
example : parseLiteral? "-1e-3" = some (.decimal true 1 (-3)) := by decide
example : parseLiteral? "." = none ∧ parseLiteral? "1e" = none ∧ parseLiteral? "e5" = none := by
  decide
example : parseLiteral? "InFiNiTy" = some (.infinity false) := by decide

end AttrExpr.Binary64
