import AttrExpr.Text.Blank
import AttrExpr.Binary64.Parts
import AttrExpr.Binary64.Read
import AttrExpr.Binary64.Shortest
import AttrExpr.Binary64.Text
import AttrExpr.Syntax.Token
import AttrExpr.Syntax.Operand
import AttrExpr.Syntax.Error
import AttrExpr.Syntax.Word
import AttrExpr.Syntax.Lexer
import AttrExpr.Syntax.Check
import AttrExpr.Tree.Basic
import AttrExpr.Tree.Parser
import AttrExpr.Tree.Json
import AttrExpr.Decimal.Basic
import AttrExpr.Decimal.Arith
import AttrExpr.Json.Value
import AttrExpr.Json.Cursor
import AttrExpr.Json.Number
import AttrExpr.Json.Read
import AttrExpr.Eval.Error
import AttrExpr.Eval.Arith
import AttrExpr.Eval.Basic
import AttrExpr.Cli.Docs
import AttrExpr.Cli.Commands
import AttrExpr.Main
import AttrExpr.Proofs.Words
import AttrExpr.Proofs.Shape
import AttrExpr.Proofs.Build
import AttrExpr.Proofs.Lexing
import AttrExpr.Proofs.Brackets
import AttrExpr.Proofs.Validation
import AttrExpr.Proofs.Parse
import AttrExpr.Proofs.Render
import AttrExpr.Proofs.Evaluation
import AttrExpr.Proofs.Attributes
import AttrExpr.Proofs.BracketPositions
import AttrExpr.Proofs.LexerMachine
import AttrExpr.Proofs.Rounding
import AttrExpr.Proofs.Operands
import AttrExpr.Proofs.Leaves
import AttrExpr.Proofs.Display
import AttrExpr.Proofs.Nesting
