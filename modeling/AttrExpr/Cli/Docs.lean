/-!
# Documentation pages

The overview and four pages: syntax, operators, attributes and errors. A page is asked for by
name, ignoring case and reading `-` as `_`, with aliases: `ops` and `precedence` for operators,
`attribute`, `attrs` and `paths` for attributes, `error` for errors. The name is not trimmed.

Every alias is ASCII, so a name can only match when each of its characters is ASCII or one
whose lowercase form is ASCII; of the latter there is one outside ASCII, the Kelvin sign, whose
lowercase is `k`. `foldName` lowercases exactly those characters and leaves every other one,
which then matches no alias, as it is.

## Main definitions

* `AttrExpr.Docs.Page`, `Page.ofName?`, `Page.text`
* `AttrExpr.Docs.overview`
-/

namespace AttrExpr.Docs

/-- Lines joined, each ending in a line feed. -/
def pageText (lines : List String) : String := String.join (lines.map (· ++ "\n"))

/-- The overview: what the calculator does, the categories, a quick reference. -/
def overview : String := pageText [
  "ATTRIBUTE CALCULATOR DOCUMENTATION",
  "",
  "The attribute calculator evaluates arithmetic expressions whose operands are",
  "numbers or remote instrument attributes, e.g.",
  "",
  "  ( sys/pwr/psu-01/current + 0.5 ) * 2",
  "",
  "DOCUMENTATION CATEGORIES",
  "",
  "  syntax            Tokens, spacing and brackets",
  "  operators         The five operators, precedence and associativity",
  "  attributes        How attribute paths are written",
  "  errors            Every syntax error and what causes it",
  "",
  "QUICK REFERENCE",
  "",
  "  2 + 3 * 4         Precedence: [2, '+', [3, '*', 4]]",
  "  ( 2 + 3 ) * 4     Brackets:   [[2, '+', 3], '*', 4]",
  "  2 ^ 3 ^ 2         Right-associative power: [2, '^', [3, '^', 2]]",
  "  a/b/c/d - 1       Attribute operand",
  "",
  "Run 'attrcalc doc <category>' for detailed documentation."]

/-- Tokens, spacing and brackets. -/
def grammarPage : String := pageText [
  "SYNTAX - Tokens and Brackets",
  "",
  "TOKENS",
  "  Operands, operators and brackets are separated by a space.",
  "",
  "    2 + 3           valid",
  "    2+3             invalid (one malformed token)",
  "",
  "OPERANDS",
  "  Numbers in decimal notation:",
  "    42   -1   3.14   .5   1e-3",
  "",
  "  Attributes as four-segment paths:",
  "    sys/pwr/psu-01/current",
  "",
  "  A negative number is written attached to its sign: -1. A lone '-' is",
  "  always the subtraction operator.",
  "",
  "BRACKETS",
  "  Brackets may stand alone or be attached to the operand next to them:",
  "",
  "    ( 2 + 3 ) * 4",
  "    (2 + 3) * 4     same tree",
  "",
  "  Only one bracket is taken off each side of a word, so '((2' is a malformed",
  "  token. Write nested brackets apart: '( (2 + 3) )'.",
  "",
  "ORDER",
  "  Operands and operators must alternate, starting and ending with an operand.",
  "  There is no implicit multiplication: '2 ( 3 )' is rejected."]

/-- The operators, their precedence and associativity. -/
def operatorsPage : String := pageText [
  "OPERATORS - Precedence and Associativity",
  "",
  "  ^     Power                     tightest, right-associative",
  "  *     Multiplication            left-associative",
  "  /     Division                  left-associative",
  "  +     Addition                  loosest, left-associative",
  "  -     Subtraction               left-associative",
  "",
  "EXAMPLES",
  "  2 + 3 * 4         [2, '+', [3, '*', 4]]",
  "  8 / 4 * 2         [[8, '/', 4], '*', 2]",
  "  8 - 4 - 2         [[8, '-', 4], '-', 2]",
  "  2 ^ 3 ^ 2         [2, '^', [3, '^', 2]]",
  "",
  "EVALUATION",
  "  +, -, * and / use exact decimal arithmetic where possible, so",
  "  0.1 + 0.2 evaluates to 0.3. ^ uses floating-point power.",
  "  Division by zero and results that are not finite are errors."]

/-- How attribute paths are written, and how readings are given. -/
def attributesPage : String := pageText [
  "ATTRIBUTES - Remote Attribute Paths",
  "",
  "FORMAT",
  "  domain/family/member/attribute",
  "",
  "  Exactly four segments separated by '/'. Each segment:",
  "    - starts with a letter, digit or '-'",
  "    - continues with any characters except space, '/', '(' and ')'",
  "",
  "EXAMPLES",
  "  sys/pwr/psu-01/current",
  "  r3-a110311cab01/mag/psia-01/current",
  "",
  "REJECTED",
  "  sys/pwr/current             three segments",
  "  sys/pwr/psu-01/current/     trailing slash",
  "  sys//psu-01/current         empty segment",
  "  _sys/pwr/psu-01/current     segment starts with '_'",
  "",
  "VALUES",
  "  'attrcalc eval' reads attribute values from a JSON object:",
  "",
  "    attrcalc eval 'sys/pwr/psu-01/current * 2' \\",
  "      --values '\x7b\"sys/pwr/psu-01/current\": 1.5\x7d'",
  "    => 3"]

/-- Every syntax error and what causes it. -/
def errorsPage : String := pageText [
  "ERRORS - Syntax Errors",
  "",
  "  invalid input in '<word>'",
  "      The word is not a number, attribute, operator or bracket.",
  "      Example: 'a// b/c/d + 1'",
  "",
  "  '<word>' was expected to be an operator, but is an operand",
  "      Two operands in a row. Example: '2 2'",
  "",
  "  '<word>' was expected to be an operand, but is an operator",
  "      Operator at the start, after another operator or after '('.",
  "      Example: '+ 2'",
  "",
  "  final token of expression is an operator: '<word>'",
  "      Example: '2 +'",
  "",
  "  opening bracket at position N is opened but never closed",
  "      Example: '( 2 + 3'",
  "",
  "  closing bracket at position N is closed but never opened",
  "      Example: '2 + 3 )'",
  "",
  "  expression is empty",
  "",
  "Positions count characters from 0 in the expression as typed, even after",
  "earlier bracket pairs have been matched. When an expression has both a bracket",
  "error and an operand/operator ordering error, the bracket error is reported."]

/-- The documentation pages. -/
inductive Page where
  | grammar
  | operators
  | attributes
  | errors
  deriving Repr, DecidableEq

/-- Lowercases the characters whose lowercase form is ASCII, and reads `-` as `_`. -/
def foldChar (c : Char) : Char :=
  if c = '-' then '_'
  else if c.toNat = 0x212A then 'k'
  else c.toLower

/-- A page name folded for matching. -/
def foldName (name : String) : String := String.ofList (name.toList.map foldChar)

/-- The page a name asks for. -/
def Page.ofName? (name : String) : Option Page :=
  match foldName name with
  | "syntax" => some .grammar
  | "operators" | "ops" | "precedence" => some .operators
  | "attributes" | "attribute" | "attrs" | "paths" => some .attributes
  | "errors" | "error" => some .errors
  | _ => none

/-- The text of a page. -/
def Page.text : Page → String
  | .grammar => grammarPage
  | .operators => operatorsPage
  | .attributes => attributesPage
  | .errors => errorsPage

end AttrExpr.Docs
