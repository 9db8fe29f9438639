import AttrExpr.Cli.Commands

/-!
# Command line

```
check EXPRESSION                      say whether the expression is well formed
tree EXPRESSION [--json [--pretty]]   show its tree as a nested list or as JSON
eval EXPRESSION [--values JSON]       evaluate it with readings from a JSON object
docs                                  the documentation overview
doc CATEGORY                          one documentation page
```

Failures are written to standard error, and the exit code is then `1`.
-/

open AttrExpr

/-- Writes the outcome of a command. -/
def finish (r : Except Cli.Error String) : IO UInt32 := do
  match r with
  | .ok out => IO.print out; return 0
  | .error e => IO.eprintln e.message; return 1

/-- The value after a flag, if the flag is given. -/
def flagValue (flag : String) : List String → Option String
  | f :: v :: rest => if f = flag then some v else flagValue flag (v :: rest)
  | _ => none

def main (args : List String) : IO UInt32 :=
  match args with
  | ["check", e] => finish ((Cli.check e).map fun _ => "Syntax is valid\n")
  | "tree" :: e :: flags =>
    let json := flags.contains "--json"
    let pretty := flags.contains "--pretty" || flags.contains "-p"
    let format := if !json then Cli.TreeFormat.list
      else if pretty then Cli.TreeFormat.pretty else Cli.TreeFormat.json
    finish ((Cli.tree e format).map (· ++ "\n"))
  | "eval" :: e :: flags =>
    finish ((Cli.eval e (flagValue "--values" flags)).map fun x =>
      Binary64.showFloat x ++ "\n")
  | ["docs"] => finish (.ok Docs.overview)
  | ["doc", name] => finish (Cli.docPage name)
  | _ => do
    IO.eprintln ("usage: check EXPR | tree EXPR [--json [--pretty]] | eval EXPR [--values JSON]" ++
      " | docs | doc CATEGORY")
    return 2
