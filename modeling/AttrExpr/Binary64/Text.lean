import AttrExpr.Binary64.Shortest

/-!
# Writing binary64 values

Every value is written from its shortest digits (`AttrExpr.Binary64.shortestDigits`); a
`Layout` record holds the decisions of one output format:

* `fixed e` — whether a value whose leading digit has decimal exponent `e` is written
  positionally; otherwise it is `d.ddd` followed by an exponent mark;
* `wholeSuffix` — what follows the digits of a positionally written whole number (`.0` or
  nothing), which also decides whether zero is `0` or `0.0`;
* `expPlus` — whether a positive exponent carries `+`;
* `tie` — which candidate wins an exact tie between two shortest digit strings;
* the texts of not-a-number and of infinity.

Two layouts are used: `plain`, always positional (`0.1`, `1000000000000000000000`, `-0`,
`inf`, `NaN`), and `json`, positional for exponents `-5` to `15` with `.0` on whole numbers
and otherwise `1e+16`, `1.5e-7`.

## Main definitions

* `AttrExpr.Binary64.Layout`, `Layout.plain`, `Layout.json`
* `AttrExpr.Binary64.Layout.render` — a value written in a layout
-/

namespace AttrExpr.Binary64

/-- The decisions of one number format; see the module documentation. -/
structure Layout where
  fixed : Int → Bool
  wholeSuffix : String
  expPlus : Bool
  tie : Tie
  nanText : String
  infText : String

/-- Always positional, no suffix on whole numbers, a tie rounds up. -/
def Layout.plain : Layout where
  fixed := fun _ => true
  wholeSuffix := ""
  expPlus := false
  tie := .up
  nanText := "NaN"
  infText := "inf"

/-- Positional for decimal exponents from `-5` to `15`, whole numbers ending in `.0`,
otherwise scientific with a signed exponent; a tie goes to the even digit. -/
def Layout.json : Layout where
  fixed := fun e => -5 ≤ e && e ≤ 15
  wholeSuffix := ".0"
  expPlus := true
  tie := .even
  nanText := "NaN"
  infText := "inf"

/-- A run of `n` zeros. -/
def zeros (n : Nat) : String := String.ofList (List.replicate n '0')

/-- Digits `ds` with the decimal point after `p` of them (`p` may lie outside the digits). -/
def Layout.positional (l : Layout) (ds : String) (p : Int) : String :=
  let len : Int := ds.length
  if p ≤ 0 then "0." ++ zeros (-p).toNat ++ ds
  else if p < len then
    String.ofList (ds.toList.take p.toNat) ++ "." ++ String.ofList (ds.toList.drop p.toNat)
  else ds ++ zeros (p - len).toNat ++ l.wholeSuffix

/-- Digits `ds` as `d.ddd` times ten to the `e`. -/
def Layout.scientific (l : Layout) (ds : String) (e : Int) : String :=
  let mantissa := match ds.toList with
    | [] => "0"
    | [d] => String.singleton d
    | d :: rest => String.singleton d ++ "." ++ String.ofList rest
  let sign := if e < 0 then "-" else if l.expPlus then "+" else ""
  mantissa ++ "e" ++ sign ++ toString e.natAbs

/-- The magnitude of a positive finite value `mant * 2^exp`. -/
def Layout.magnitude (l : Layout) (mant : Nat) (exp : Int) : String :=
  let (c, k) := shortestDigits l.tie mant exp
  let ds := toString c
  let p : Int := ds.length + k
  if l.fixed (p - 1) then l.positional ds p else l.scientific ds (p - 1)

/-- A value written in a layout. -/
def Layout.render (l : Layout) (x : Float) : String :=
  match decode x with
  | .nan => l.nanText
  | .infinite neg => (if neg then "-" else "") ++ l.infText
  | .finite neg mant exp =>
    let sign := if neg then "-" else ""
    if mant = 0 then sign ++ "0" ++ l.wholeSuffix else sign ++ l.magnitude mant exp

/-- The plain positional text of a value. -/
def showFloat (x : Float) : String := Layout.plain.render x

end AttrExpr.Binary64
