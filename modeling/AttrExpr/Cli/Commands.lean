import AttrExpr.Eval.Basic
import AttrExpr.Tree.Json
import AttrExpr.Json.Read
import AttrExpr.Cli.Docs

/-!
# Commands

What the command line offers, as functions: check an expression, show its tree in one of three
formats, evaluate it with readings given as a JSON object, and show documentation.

Readings are a JSON object from paths to numbers. A JSON number is taken as read; a string is
trimmed of blanks and read as a binary64 literal, so `"inf"` is allowed and shows up later as a
reading with no finite value. Any other value is refused, the first in key order being named.
Readings are kept as bit patterns (`AttrExpr.Binary64.Bits`), so `"-nan"` keeps its sign bit.
Readings are needed only when the expression has attribute paths.

Errors are checked in this order: the expression, missing readings, the readings, evaluation.

## Main definitions

* `AttrExpr.Cli.Error`, `Error.message`
* `AttrExpr.Cli.check`, `AttrExpr.Cli.tree`, `AttrExpr.Cli.eval`
* `AttrExpr.Cli.readingsOfJson` — readings from JSON text
* `AttrExpr.Cli.docPage` — a documentation page by name
-/

namespace AttrExpr.Cli

/-- Why a command failed. -/
inductive Error where
  | parse (e : ParseError)
  | eval (e : EvalError)
  | json (e : Json.Error)
  | invalidValues (why : String)
  | noInput
  | unknownCategory (name : String)

/-- The message of a failed command. -/
def Error.message : Error → String
  | .parse e => "Syntax error: " ++ e.message
  | .eval e => "Evaluation error: " ++ e.message
  | .json e => "Invalid JSON: " ++ e.message
  | .invalidValues why => "Invalid attribute values: " ++ why
  | .noInput => "No attribute values provided. Use --values or pipe a JSON object to stdin."
  | .unknownCategory name =>
    "Unknown category: '" ++ name ++ "'\nRun 'attrcalc docs' to see available categories."

/-- The three ways to show a tree. -/
inductive TreeFormat where
  | list
  | json
  | pretty
  deriving Repr, DecidableEq

/-- Reads an expression, or says why not. -/
def parsed (expression : String) : Except Error Expr :=
  match parseExpression expression with
  | .ok e => .ok e
  | .error e => .error (.parse e)

/-- Checks an expression. -/
def check (expression : String) : Except Error Unit :=
  (parsed expression).map fun _ => ()

/-- Shows the tree of an expression. -/
def tree (expression : String) (format : TreeFormat) : Except Error String :=
  (parsed expression).map fun e =>
    match format with
    | .list => e.display
    | .json => e.json
    | .pretty => e.jsonPretty

/-- Drops blanks at both ends. -/
def trimBlanks (s : String) : String :=
  String.ofList ((s.toList.dropWhile isBlank).reverse.dropWhile isBlank).reverse

/-- The reading a JSON value gives, if any, by its bit pattern: `"-nan"` keeps its sign. -/
def readingOf : Json.Value → Option Binary64.Bits
  | .number n => some (Binary64.Bits.ofFloat n.toFloat)
  | .string s => Binary64.readBits? (trimBlanks s)
  | _ => none

/-- Readings of object members in key order; the first member without one is named. -/
def readingsOfMembers : List (String × Json.Value) →
    Except Error (List (String × Binary64.Bits))
  | [] => .ok []
  | (path, v) :: rest =>
    match readingOf v with
    | some x => (readingsOfMembers rest).map fun r => (path, x) :: r
    | none =>
      .error (.invalidValues ("value for '" ++ path ++ "' is not a number: " ++ v.compact))

/-- Readings from JSON text: an object from paths to numbers. -/
def readingsOfJson (text : String) : Except Error (List (String × Binary64.Bits)) :=
  match Json.parse text with
  | .error e => .error (.json e)
  | .ok (.object members) => readingsOfMembers members
  | .ok _ =>
    .error (.invalidValues "expected a JSON object mapping attribute paths to numbers")

/-- Evaluates an expression with readings given as JSON text, if any. -/
def eval (expression : String) (values : Option String) : Except Error Float := do
  let e ← parsed expression
  let table ← match values with
    | some text => readingsOfJson text
    | none => if e.attributes.isEmpty then .ok [] else .error .noInput
  match (e.evaluate (Reader.ofList (table.map fun (path, b) => (path, b.toFloat)))).result with
  | .ok v => .ok v
  | .error err => .error (.eval err)

/-- A documentation page by name. -/
def docPage (name : String) : Except Error String :=
  match Docs.Page.ofName? name with
  | some page => .ok page.text
  | none => .error (.unknownCategory name)

end AttrExpr.Cli
