import AttrExpr.Json.Value
import AttrExpr.Json.Cursor

/-!
# JSON numbers

The grammar is JSON's: an optional `-`, then `0` or a digit `1`-`9` followed by digits, then
optionally `.` with at least one digit, then optionally `e` or `E`, a sign and at least one
digit. A `+` sign, a leading zero before another digit, `.5` and `1.` are refused.

The value is composed the quick way, which is not always the nearest binary64 value:

* digits are collected into a 64-bit significand; once the next digit would overflow it, the
  remaining integer digits only raise the decimal exponent and the remaining fraction digits
  are dropped;
* the exponent is collected into 31 bits; a longer one makes a nonzero number with a positive
  exponent an error and anything else a zero;
* the significand is rounded to binary64 and multiplied or divided by `10^|e|` rounded to
  binary64, for `|e| ≤ 308`. Below that it is divided by `1e308` first, as often as needed; a
  product that overflows is an error.

An integer without point or exponent stays exact: up to `2^64 - 1`, or down to `-2^63`; `-0`
is the binary64 value `-0.0`, and other negative integers become binary64 values.

## Main definitions

* `AttrExpr.Json.pow10Table`, `AttrExpr.Json.composeFloat` — the quick composition
* `AttrExpr.Json.readNumber` — a number at a cursor, after its sign
* `AttrExpr.Json.readNumberText` — a whole text that is one number, blanks around allowed
-/

namespace AttrExpr.Json

/-- The largest 64-bit unsigned integer. -/
def u64Max : Nat := Nat.pow 2 64 - 1

/-- The largest 32-bit signed integer. -/
def i32Max : Nat := Nat.pow 2 31 - 1

/-- The powers `10^i` rounded to binary64, for `i` from `0` to `308`. -/
def pow10Table : Array Float :=
  (List.range 309).toArray.map fun i => Binary64.ofNat (Nat.pow 10 i)

/-- The power `10^i` rounded to binary64, for `i ≤ 308`. -/
def pow10 (i : Nat) : Float := pow10Table.getD i 1

/-- The value of an ASCII digit. -/
def digitVal (d : Char) : Nat := d.toNat - '0'.toNat

/-- The quick composition of `sig * 10^exp`, `none` when it overflows. At most three steps are
needed: a significand below `2^64` divided twice by `1e308` is zero. -/
def composeFrom (f : Float) (exp : Int) : Nat → Option Float
  | 0 => some f
  | fuel + 1 =>
    if exp.natAbs ≤ 308 then
      if exp ≥ 0 then
        let g := f * pow10 exp.natAbs
        if Binary64.isFinite g then some g else none
      else some (f / pow10 exp.natAbs)
    else if f == 0 then some f
    else if exp ≥ 0 then none
    else composeFrom (f / pow10 308) (exp + 308) fuel

/-- The value `(-1)^(!positive) * sig * 10^exp` composed the quick way. -/
def composeFloat (positive : Bool) (sig : Nat) (exp : Int) : Option Float :=
  (composeFrom (Binary64.ofNat sig) exp 4).map fun f => if positive then f else -f

/-- Moves past `n` ASCII characters of one line. -/
def Cursor.skipAscii (c : Cursor) (n : Nat) : Cursor := ⟨c.rest.drop n, c.line, c.column + n⟩

/-- Collects digits into a significand while it stays within 64 bits. Gives the significand,
the digits taken, and whether a digit was left because it would overflow. -/
def collectDigits : List Char → Nat → Nat → Nat × Nat × Bool
  | [], sig, n => (sig, n, false)
  | d :: rest, sig, n =>
    if d.isDigit then
      if sig * 10 + digitVal d > u64Max then (sig, n, true)
      else collectDigits rest (sig * 10 + digitVal d) (n + 1)
    else (sig, n, false)

/-- The number of leading digits. -/
def countDigits (cs : List Char) : Nat := (cs.takeWhile Char.isDigit).length

/-- Collects exponent digits into 31 bits; `none` when a digit overflows it, with the number of
digits up to and including that one. -/
def collectExponent : List Char → Nat → Nat → Nat × Option Nat
  | [], e, n => (n, some e)
  | d :: rest, e, n =>
    if d.isDigit then
      if e * 10 + digitVal d > i32Max then (n + 1, none)
      else collectExponent rest (e * 10 + digitVal d) (n + 1)
    else (n, some e)

/-- Clamps to the 32-bit signed range. -/
def clampI32 (e : Int) : Int := max (-(i32Max : Int) - 1) (min e i32Max)

/-- The composed number, or an out-of-range error at the cursor. -/
def finishFloat (positive : Bool) (sig : Nat) (exp : Int) (c : Cursor) :
    Except Error (Number × Cursor) :=
  match composeFloat positive sig exp with
  | some f => .ok (.float f, c)
  | none => c.fail .numberOutOfRange

/-- The exponent part, the cursor on `e` or `E`. -/
def readExponent (positive : Bool) (sig : Nat) (start : Int) (c : Cursor) :
    Except Error (Number × Cursor) :=
  let c := c.skipAscii 1
  let (expPositive, c) := match c.rest with
    | '+' :: _ => (true, c.skipAscii 1)
    | '-' :: _ => (false, c.skipAscii 1)
    | _ => (true, c)
  match c.rest with
  | [] => c.fail .eofWhileParsingValue
  | d :: rest =>
    if !d.isDigit then c.failAhead .invalidNumber
    else
      match collectExponent rest (digitVal d) 1 with
      | (n, some e) =>
        let c := c.skipAscii n
        finishFloat positive sig (clampI32 (if expPositive then start + e else start - e)) c
      | (n, none) =>
        let c := c.skipAscii n
        if sig ≠ 0 && expPositive then c.fail .numberOutOfRange
        else
          let c := c.skipAscii (countDigits c.rest)
          .ok (.float (if positive then 0.0 else -0.0), c)

/-- After the significand's digits: an exponent part, or the end of the number. -/
def readExponentOrEnd (positive : Bool) (sig : Nat) (exp : Int) (c : Cursor) :
    Except Error (Number × Cursor) :=
  match c.rest with
  | 'e' :: _ | 'E' :: _ => readExponent positive sig exp c
  | _ => finishFloat positive sig exp c

/-- The fraction part, the cursor on `.`; `exp` counts integer digits that did not fit. -/
def readFraction (positive : Bool) (sig : Nat) (exp : Int) (c : Cursor) :
    Except Error (Number × Cursor) :=
  let c := c.skipAscii 1
  match collectDigits c.rest sig 0 with
  | (sig', n, true) =>
    let c := c.skipAscii n
    let c := c.skipAscii (countDigits c.rest)
    readExponentOrEnd positive sig' (exp - n) c
  | (sig', n, false) =>
    let c := c.skipAscii n
    if n = 0 then
      match c.rest with
      | [] => c.fail .eofWhileParsingValue
      | _ => c.failAhead .invalidNumber
    else readExponentOrEnd positive sig' (exp - n) c

/-- After the integer digits. -/
def readAfterInteger (positive : Bool) (sig : Nat) (exp : Int) (exact : Bool) (c : Cursor) :
    Except Error (Number × Cursor) :=
  match c.rest with
  | '.' :: _ => readFraction positive sig exp c
  | 'e' :: _ | 'E' :: _ => readExponent positive sig exp c
  | _ =>
    if !exact then finishFloat positive sig exp c
    else if positive then .ok (.nat sig, c)
    else if sig = 0 then .ok (.float (-0.0), c)
    else if sig ≤ Nat.pow 2 63 then .ok (.negInt sig, c)
    else .ok (.float (-(Binary64.ofNat sig)), c)

/-- A number at a cursor, after its sign. -/
def readNumber (positive : Bool) (c : Cursor) : Except Error (Number × Cursor) :=
  match c.rest with
  | [] => c.fail .eofWhileParsingValue
  | '0' :: rest =>
    match rest with
    | d :: _ => if d.isDigit then (c.skipAscii 1).failAhead .invalidNumber
      else readAfterInteger positive 0 0 true (c.skipAscii 1)
    | [] => readAfterInteger positive 0 0 true (c.skipAscii 1)
  | d :: rest =>
    if d.isDigit then
      match collectDigits rest (digitVal d) 1 with
      | (sig, n, false) => readAfterInteger positive sig 0 true (c.skipAscii n)
      | (sig, n, true) =>
        let c := c.skipAscii n
        let extra := countDigits c.rest
        readAfterInteger positive sig extra false (c.skipAscii extra)
    else c.failAhead .invalidNumber

/-- A number with its optional `-`, at a cursor on its first character. -/
def readSignedNumber (c : Cursor) : Except Error (Number × Cursor) :=
  match c.rest with
  | '-' :: _ => readNumber false (c.skipAscii 1)
  | _ => readNumber true c

/-- A text that is exactly one JSON number, with JSON blanks around it. -/
def readNumberText (s : String) : Option Number :=
  let c := (Cursor.start s).skipBlanks
  match c.rest with
  | d :: _ =>
    if d = '-' || d.isDigit then
      match readSignedNumber c with
      | .ok (n, c') => if c'.skipBlanks.rest.isEmpty then some n else none
      | .error _ => none
    else none
  | [] => none

end AttrExpr.Json
