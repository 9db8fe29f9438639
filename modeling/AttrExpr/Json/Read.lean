import AttrExpr.Json.Number

/-!
# Reading JSON documents

A document is one value with JSON blanks around it. Strings must not contain controls below
`0x20`; escapes are `\" \\ \/ \b \f \n \r \t` and `\uXXXX`, where a high surrogate must be
followed at once by an escaped low surrogate and a lone low surrogate is refused. Arrays and
objects nest at most 127 deep. Object members are kept by key, the last of equal keys winning.

Each error is reported with the line and byte column where it was found, in the words of
`AttrExpr.Json.ErrorCode.describe`.

The reader is total: every function takes a fuel argument, and the document reader gives each
value more fuel than the text has characters, while every nested call has consumed at least
one character since its caller's own start or is the first value of an array.

## Main definitions

* `AttrExpr.Json.readString` — a string literal after its opening quote
* `AttrExpr.Json.readValue` — a value at a cursor
* `AttrExpr.Json.parse` — a whole document
-/

namespace AttrExpr.Json

/-- The value of a hex digit. -/
def hexVal (c : Char) : Option Nat :=
  if c.isDigit then some (c.toNat - '0'.toNat)
  else if 'a' ≤ c && c ≤ 'f' then some (c.toNat - 'a'.toNat + 10)
  else if 'A' ≤ c && c ≤ 'F' then some (c.toNat - 'A'.toNat + 10)
  else none

/-- Four hex digits after `\u`, and the cursor after them. Fewer than four bytes left is the end
of the string; four bytes that are not all hex digits are an invalid escape. -/
def readHex4 (c : Cursor) : Except Error (Nat × Cursor) :=
  match c.rest with
  | a :: b :: d :: e :: _ =>
    match hexVal a, hexVal b, hexVal d, hexVal e with
    | some a, some b, some d, some e => .ok (((a * 16 + b) * 16 + d) * 16 + e, c.skipAscii 4)
    | _, _, _, _ => (c.ahead 4).fail .invalidEscape
  | _ =>
    if c.restBytes < 4 then (c.ahead c.restBytes).fail .eofWhileParsingString
    else (c.ahead 4).fail .invalidEscape

/-- A `\u` escape after its `u`: one code point, a surrogate pair, or an error. -/
def readUnicodeEscape (c : Cursor) : Except Error (Char × Cursor) :=
  match readHex4 c with
  | .error e => .error e
  | .ok (n, c) =>
    if 0xDC00 ≤ n && n ≤ 0xDFFF then c.fail .loneLeadingSurrogateInHexEscape
    else if n < 0xD800 || n > 0xDBFF then .ok (Char.ofNat n, c)
    else
      match c.rest with
      | [] => c.fail .eofWhileParsingString
      | '\\' :: _ =>
        let c := c.skipAscii 1
        match c.rest with
        | [] => c.fail .eofWhileParsingString
        | 'u' :: _ =>
          match readHex4 (c.skipAscii 1) with
          | .error e => .error e
          | .ok (n2, c) =>
            if 0xDC00 ≤ n2 && n2 ≤ 0xDFFF then
              .ok (Char.ofNat ((n - 0xD800) * 0x400 + (n2 - 0xDC00) + 0x10000), c)
            else c.fail .loneLeadingSurrogateInHexEscape
        | _ => c.failAhead .unexpectedEndOfHexEscape
      | _ => c.failAhead .unexpectedEndOfHexEscape

/-- An escape after its backslash. -/
def readEscape (c : Cursor) : Except Error (Char × Cursor) :=
  match c.rest with
  | [] => c.fail .eofWhileParsingString
  | ch :: _ =>
    let next := c.skipAscii 1
    if ch = '"' then .ok ('"', next)
    else if ch = '\\' then .ok ('\\', next)
    else if ch = '/' then .ok ('/', next)
    else if ch = 'b' then .ok (Char.ofNat 8, next)
    else if ch = 'f' then .ok (Char.ofNat 12, next)
    else if ch = 'n' then .ok ('\n', next)
    else if ch = 'r' then .ok ('\r', next)
    else if ch = 't' then .ok ('\t', next)
    else if ch = 'u' then readUnicodeEscape next
    else c.failAhead .invalidEscape

/-- The characters of a string literal up to its closing quote, `acc` holding those read so
far in reverse. -/
def readStringChars (acc : List Char) (c : Cursor) : Nat → Except Error (String × Cursor)
  | 0 => c.fail .eofWhileParsingString
  | fuel + 1 =>
    match c.rest with
    | [] => c.fail .eofWhileParsingString
    | ch :: _ =>
      if ch = '"' then .ok (String.ofList acc.reverse, c.skipAscii 1)
      else if ch = '\\' then
        match readEscape (c.skipAscii 1) with
        | .ok (e, c) => readStringChars (e :: acc) c fuel
        | .error e => .error e
      else if ch.toNat < 0x20 then c.failAhead .controlCharacterWhileParsingString
      else readStringChars (ch :: acc) c.bump fuel

/-- A string literal after its opening quote. -/
def readString (c : Cursor) : Except Error (String × Cursor) :=
  readStringChars [] c (c.rest.length + 1)

/-- The rest of a literal name such as `rue` after `t`. -/
def readIdent (c : Cursor) : List Char → Except Error Cursor
  | [] => .ok c
  | want :: more =>
    match c.rest with
    | [] => c.fail .eofWhileParsingValue
    | ch :: _ => if ch = want then readIdent c.bump more else c.failAhead .expectedSomeIdent

mutual

/-- A value at a cursor; `depth` is how many more arrays and objects may be opened. -/
def readValue (depth : Nat) (c : Cursor) : Nat → Except Error (Value × Cursor)
  | 0 => c.fail .recursionLimitExceeded
  | fuel + 1 =>
    let c := c.skipBlanks
    match c.rest with
    | [] => c.failAhead .eofWhileParsingValue
    | 'n' :: _ => (readIdent c.bump "ull".toList).map fun c => (.null, c)
    | 't' :: _ => (readIdent c.bump "rue".toList).map fun c => (.bool true, c)
    | 'f' :: _ => (readIdent c.bump "alse".toList).map fun c => (.bool false, c)
    | '"' :: _ => (readString (c.skipAscii 1)).map fun (s, c) => (.string s, c)
    | '[' :: _ =>
      if depth ≤ 1 then c.failAhead .recursionLimitExceeded
      else (readItems (depth - 1) true [] (c.skipAscii 1) fuel).map fun (vs, c) => (.array vs, c)
    | '{' :: _ =>
      if depth ≤ 1 then c.failAhead .recursionLimitExceeded
      else (readMembers (depth - 1) true [] (c.skipAscii 1) fuel).map
        fun (ms, c) => (.object ms, c)
    | ch :: _ =>
      if ch = '-' || ch.isDigit then (readSignedNumber c).map fun (n, c) => (.number n, c)
      else c.failAhead .expectedSomeValue

/-- Array items after `[` or after an item; `acc` holds the items so far in reverse. -/
def readItems (depth : Nat) (first : Bool) (acc : List Value) (c : Cursor) :
    Nat → Except Error (List Value × Cursor)
  | 0 => c.fail .recursionLimitExceeded
  | fuel + 1 =>
    let c := c.skipBlanks
    match c.rest with
    | [] => c.failAhead .eofWhileParsingList
    | ']' :: _ => .ok (acc.reverse, c.skipAscii 1)
    | ',' :: _ =>
      if first then
        -- A comma cannot open an array; it is read as a value and refused.
        c.failAhead .expectedSomeValue
      else
        let c := (c.skipAscii 1).skipBlanks
        match c.rest with
        | ']' :: _ => c.failAhead .trailingComma
        | [] => c.failAhead .eofWhileParsingValue
        | _ =>
          match readValue depth c fuel with
          | .ok (v, c) => readItems depth false (v :: acc) c fuel
          | .error e => .error e
    | _ =>
      if first then
        match readValue depth c fuel with
        | .ok (v, c) => readItems depth false (v :: acc) c fuel
        | .error e => .error e
      else c.failAhead .expectedListCommaOrEnd

/-- Object members after `\x7b` or after a member; `acc` holds the members so far. -/
def readMembers (depth : Nat) (first : Bool) (acc : List (String × Value)) (c : Cursor) :
    Nat → Except Error (List (String × Value) × Cursor)
  | 0 => c.fail .recursionLimitExceeded
  | fuel + 1 =>
    let c := c.skipBlanks
    match c.rest with
    | [] => c.failAhead .eofWhileParsingObject
    | '\x7d' :: _ => .ok (acc, c.skipAscii 1)
    | ch :: _ =>
      if ch = ',' && first || ch ≠ ',' && !first then
        if first then c.failAhead .keyMustBeAString else c.failAhead .expectedObjectCommaOrEnd
      else
        let c := if ch = ',' then (c.skipAscii 1).skipBlanks else c
        match c.rest with
        | '"' :: _ =>
          match readString (c.skipAscii 1) with
          | .error e => .error e
          | .ok (key, c) =>
            let c := c.skipBlanks
            match c.rest with
            | ':' :: _ =>
              match readValue depth (c.skipAscii 1) fuel with
              | .ok (v, c) => readMembers depth false (insertMember key v acc) c fuel
              | .error e => .error e
            | [] => c.failAhead .eofWhileParsingObject
            | _ => c.failAhead .expectedColon
        | '\x7d' :: _ => c.failAhead .trailingComma
        | [] => c.failAhead .eofWhileParsingValue
        | _ => c.failAhead .keyMustBeAString

end

/-- A whole document: one value, then only blanks. -/
def parse (s : String) : Except Error Value :=
  let c := Cursor.start s
  match readValue 128 c (2 * c.rest.length + 2) with
  | .error e => .error e
  | .ok (v, c) =>
    let c := c.skipBlanks
    match c.rest with
    | [] => .ok v
    | _ => c.failAhead .trailingCharacters

end AttrExpr.Json
