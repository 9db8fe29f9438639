/-!
# Reading position and reading errors

JSON text is read character by character through a cursor that knows its line (from `1`) and
its column, counted in UTF-8 bytes since the last line feed. An error is reported at a line and
column. Some errors are reported *at the next character*: one byte further, which after a line
feed is the start of the next line; at the end of the text both places are the end.

## Main definitions

* `AttrExpr.Json.Cursor` — the rest of the text and its position
* `AttrExpr.Json.ErrorCode`, `AttrExpr.Json.Error`, `Error.message`
* `Cursor.fail`, `Cursor.failAhead` — an error here, or at the next character
-/

namespace AttrExpr.Json

/-- What went wrong while reading JSON text. -/
inductive ErrorCode where
  | eofWhileParsingList
  | eofWhileParsingObject
  | eofWhileParsingString
  | eofWhileParsingValue
  | expectedColon
  | expectedListCommaOrEnd
  | expectedObjectCommaOrEnd
  | expectedSomeIdent
  | expectedSomeValue
  | invalidEscape
  | invalidNumber
  | numberOutOfRange
  | controlCharacterWhileParsingString
  | keyMustBeAString
  | loneLeadingSurrogateInHexEscape
  | trailingComma
  | trailingCharacters
  | unexpectedEndOfHexEscape
  | recursionLimitExceeded
  deriving Repr, DecidableEq

/-- The description of an error. -/
def ErrorCode.describe : ErrorCode → String
  | .eofWhileParsingList => "EOF while parsing a list"
  | .eofWhileParsingObject => "EOF while parsing an object"
  | .eofWhileParsingString => "EOF while parsing a string"
  | .eofWhileParsingValue => "EOF while parsing a value"
  | .expectedColon => "expected `:`"
  | .expectedListCommaOrEnd => "expected `,` or `]`"
  | .expectedObjectCommaOrEnd => "expected `,` or `\x7d`"
  | .expectedSomeIdent => "expected ident"
  | .expectedSomeValue => "expected value"
  | .invalidEscape => "invalid escape"
  | .invalidNumber => "invalid number"
  | .numberOutOfRange => "number out of range"
  | .controlCharacterWhileParsingString =>
    "control character (\\u0000-\\u001F) found while parsing a string"
  | .keyMustBeAString => "key must be a string"
  | .loneLeadingSurrogateInHexEscape => "lone leading surrogate in hex escape"
  | .trailingComma => "trailing comma"
  | .trailingCharacters => "trailing characters"
  | .unexpectedEndOfHexEscape => "unexpected end of hex escape"
  | .recursionLimitExceeded => "recursion limit exceeded"

/-- An error and where it was found. -/
structure Error where
  code : ErrorCode
  line : Nat
  column : Nat
  deriving Repr, DecidableEq

/-- The message of an error. -/
def Error.message (e : Error) : String :=
  e.code.describe ++ " at line " ++ toString e.line ++ " column " ++ toString e.column

/-- The text still to read and the position of its first character. -/
structure Cursor where
  rest : List Char
  line : Nat
  column : Nat

namespace Cursor

/-- A cursor at the start of a text. -/
def start (s : String) : Cursor := ⟨s.toList, 1, 0⟩

/-- The next character, if any. -/
def peek (c : Cursor) : Option Char := c.rest.head?

/-- Moves past one character. -/
def bump (c : Cursor) : Cursor :=
  match c.rest with
  | [] => c
  | ch :: rest =>
    if ch = '\n' then ⟨rest, c.line + 1, 0⟩ else ⟨rest, c.line, c.column + ch.utf8Size⟩

/-- An error at the cursor. -/
def fail {α : Type} (c : Cursor) (code : ErrorCode) : Except Error α :=
  .error ⟨code, c.line, c.column⟩

/-- An error one byte ahead of the cursor. -/
def failAhead {α : Type} (c : Cursor) (code : ErrorCode) : Except Error α :=
  match c.rest with
  | [] => .error ⟨code, c.line, c.column⟩
  | ch :: _ =>
    if ch = '\n' then .error ⟨code, c.line + 1, 0⟩ else .error ⟨code, c.line, c.column + 1⟩

/-- Moves past the JSON blanks (space, tab, line feed, carriage return) of a text at the
given position. -/
def skipBlanksFrom : List Char → Nat → Nat → Cursor
  | [], line, column => ⟨[], line, column⟩
  | ch :: rest, line, column =>
    if ch = '\n' then skipBlanksFrom rest (line + 1) 0
    else if ch = ' ' || ch = '\t' || ch = '\r' then skipBlanksFrom rest line (column + 1)
    else ⟨ch :: rest, line, column⟩

/-- Moves past the JSON blanks. -/
def skipBlanks (c : Cursor) : Cursor := skipBlanksFrom c.rest c.line c.column

/-- The position `n` bytes into a text at the given position, or its end if it is shorter. A
character cut by the `n`-th byte counts its bytes up to there. -/
def aheadFrom : List Char → Nat → Nat → Nat → Cursor
  | [], line, column, _ => ⟨[], line, column⟩
  | rest, line, column, 0 => ⟨rest, line, column⟩
  | ch :: rest, line, column, n + 1 =>
    if ch = '\n' then aheadFrom rest (line + 1) 0 n
    else if ch.utf8Size ≤ n + 1 then
      aheadFrom rest line (column + ch.utf8Size) (n + 1 - ch.utf8Size)
    else ⟨ch :: rest, line, column + n + 1⟩

/-- The position `n` bytes ahead. -/
def ahead (c : Cursor) (n : Nat) : Cursor := aheadFrom c.rest c.line c.column n

/-- The number of bytes of the rest of the text. -/
def restBytes (c : Cursor) : Nat := c.rest.foldr (fun ch n => ch.utf8Size + n) 0

end Cursor

end AttrExpr.Json
