import AttrExpr.Binary64.Text

/-!
# JSON values and how they are written

A JSON number is kept the way it was read: an integer that fits in 64 unsigned bits, a negative
integer down to `-2^63`, or a finite binary64 value. An object keeps one value per key, the keys
in ascending order of their characters (which is their byte order in UTF-8); writing a key
again replaces its value.

Text is written compactly (`[1,"+",2]`) or pretty, with two spaces of indent per level and one
element per line. In strings `"` and `\` are escaped, the controls below `0x20` are written as
`\b \t \n \f \r` or `\u00xx`, and everything else, non-ASCII included, is written as it is.
Binary64 numbers use `AttrExpr.Binary64.Layout.json`.

## Main definitions

* `AttrExpr.Json.Number`, `AttrExpr.Json.Value`
* `AttrExpr.Json.insertMember` — an object member added in key order, replacing an old one
* `AttrExpr.Json.quote` — a string literal
* `Value.compact`, `Value.pretty` — the two layouts
-/

namespace AttrExpr.Json

/-- A JSON number as read. -/
inductive Number where
  /-- An integer from `0` to `2^64 - 1`. -/
  | nat (n : Nat)
  /-- The integer `-n`, for `0 < n ≤ 2^63`. -/
  | negInt (n : Nat)
  /-- A finite binary64 value. -/
  | float (x : Float)

/-- A JSON value. -/
inductive Value where
  | null
  | bool (b : Bool)
  | number (n : Number)
  | string (s : String)
  | array (items : List Value)
  | object (members : List (String × Value))

/-- Adds a member to members sorted by key; a member with the same key is replaced. -/
def insertMember (key : String) (v : Value) : List (String × Value) → List (String × Value)
  | [] => [(key, v)]
  | (k, w) :: rest =>
    if key < k then (key, v) :: (k, w) :: rest
    else if key = k then (key, v) :: rest
    else (k, w) :: insertMember key v rest

/-- The value of a number as a binary64 value; large integers are rounded. -/
def Number.toFloat : Number → Float
  | .nat n => Binary64.ofNat n
  | .negInt n => Binary64.ofRatio true n 1
  | .float x => x

/-- The text of a number. -/
def Number.write : Number → String
  | .nat n => toString n
  | .negInt n => "-" ++ toString n
  | .float x => Binary64.Layout.json.render x

/-- Two lowercase hex digits. -/
def hex2 (n : Nat) : String :=
  let digit := fun (d : Nat) => if d < 10 then Char.ofNat (48 + d) else Char.ofNat (87 + d)
  String.ofList [digit (n / 16 % 16), digit (n % 16)]

/-- A character inside a string literal. -/
def escapeChar (c : Char) : String :=
  if c = '"' then "\\\""
  else if c = '\\' then "\\\\"
  else if c = '\n' then "\\n"
  else if c = '\r' then "\\r"
  else if c = '\t' then "\\t"
  else if c.toNat = 8 then "\\b"
  else if c.toNat = 12 then "\\f"
  else if c.toNat < 0x20 then "\\u00" ++ hex2 c.toNat
  else String.singleton c

/-- A string literal. -/
def quote (s : String) : String :=
  "\"" ++ String.join (s.toList.map escapeChar) ++ "\""

mutual

/-- The compact text of a value. -/
def Value.compact : Value → String
  | .null => "null"
  | .bool b => if b then "true" else "false"
  | .number n => n.write
  | .string s => quote s
  | .array items => "[" ++ compactItems items ++ "]"
  | .object members => "\x7b" ++ compactMembers members ++ "\x7d"

/-- Compact array items, comma-separated. -/
def compactItems : List Value → String
  | [] => ""
  | [v] => v.compact
  | v :: vs => v.compact ++ "," ++ compactItems vs

/-- Compact object members, comma-separated. -/
def compactMembers : List (String × Value) → String
  | [] => ""
  | [(k, v)] => quote k ++ ":" ++ v.compact
  | (k, v) :: ms => quote k ++ ":" ++ v.compact ++ "," ++ compactMembers ms

end

/-- Two spaces per level. -/
def indent (level : Nat) : String := String.ofList (List.replicate (2 * level) ' ')

mutual

/-- The pretty text of a value at a given depth. -/
def Value.prettyAt (level : Nat) : Value → String
  | .array [] => "[]"
  | .array items => "[\n" ++ prettyItems (level + 1) items ++ "\n" ++ indent level ++ "]"
  | .object [] => "\x7b\x7d"
  | .object members =>
    "\x7b\n" ++ prettyMembers (level + 1) members ++ "\n" ++ indent level ++ "\x7d"
  | v@(.null) | v@(.bool _) | v@(.number _) | v@(.string _) => v.compact

/-- Pretty array items, one per line. -/
def prettyItems (level : Nat) : List Value → String
  | [] => ""
  | [v] => indent level ++ v.prettyAt level
  | v :: vs => indent level ++ v.prettyAt level ++ ",\n" ++ prettyItems level vs

/-- Pretty object members, one per line. -/
def prettyMembers (level : Nat) : List (String × Value) → String
  | [] => ""
  | [(k, v)] => indent level ++ quote k ++ ": " ++ v.prettyAt level
  | (k, v) :: ms => indent level ++ quote k ++ ": " ++ v.prettyAt level ++ ",\n" ++
      prettyMembers level ms

end

/-- The pretty text of a value. -/
def Value.pretty (v : Value) : String := v.prettyAt 0

end AttrExpr.Json
