import Curly.Catalog
import Curly.Complaint
import Curly.Context
import Curly.Data.Basic
import Curly.Data.Reader
import Curly.Decimal.Shortest
import Curly.Decimal.Style
import Curly.Defaults
import Curly.Delimiter.Table
import Curly.EvalError
import Curly.Helper.Basic
import Curly.Helper.Stock
import Curly.Mark
import Curly.Meaning
import Curly.Options.Basic
import Curly.Options.Reader
import Curly.Path
import Curly.Pattern.Basic
import Curly.Pattern.CharSet
import Curly.Pattern.Reader
import Curly.Proofs.Acceptance
import Curly.Proofs.Delimiter.Layout
import Curly.Proofs.Delimiter.LineEnd
import Curly.Proofs.Delimiter.Pairing
import Curly.Proofs.Delimiter.Priority
import Curly.Proofs.Delimiter.Reading
import Curly.Proofs.Delimiter.Seam
import Curly.Proofs.Delimiter.Search
import Curly.Proofs.Delimiter.Shape
import Curly.Proofs.Delimiter.Tokens
import Curly.Proofs.Delimiters
import Curly.Proofs.Diagnostic
import Curly.Proofs.DistinctNames
import Curly.Proofs.Escaping
import Curly.Proofs.Isolation
import Curly.Proofs.LineEnd
import Curly.Proofs.Names
import Curly.Proofs.Nesting
import Curly.Proofs.Outcome
import Curly.Proofs.Path.Evaluation
import Curly.Proofs.Path.Expression
import Curly.Proofs.Path.Guard
import Curly.Proofs.Path.Key
import Curly.Proofs.Path.Lookup
import Curly.Proofs.Path.Misread
import Curly.Proofs.Path.Numeral
import Curly.Proofs.Path.Rejection
import Curly.Proofs.Path.Rendering
import Curly.Proofs.Path.Spelling
import Curly.Proofs.Path.Walk
import Curly.Proofs.Pattern.Hits
import Curly.Proofs.Pattern.Rounds
import Curly.Proofs.Protection
import Curly.Proofs.Rule.Dispatch
import Curly.Proofs.Rule.Insertion
import Curly.Proofs.Rule.Stock
import Curly.Proofs.Script.Alike
import Curly.Proofs.Script.Atoms
import Curly.Proofs.Script.Building
import Curly.Proofs.Script.Closing
import Curly.Proofs.Script.Demand
import Curly.Proofs.Script.Extension
import Curly.Proofs.Script.Fragment
import Curly.Proofs.Script.Parsing
import Curly.Proofs.Script.Spelling
import Curly.Proofs.Script.Stray
import Curly.Proofs.Script.Truncation
import Curly.Proofs.Section.Action
import Curly.Proofs.Section.Concatenation
import Curly.Proofs.Section.Draft
import Curly.Proofs.Section.Forest
import Curly.Proofs.Section.Outline
import Curly.Proofs.Section.Rendering
import Curly.Proofs.Section.Statements
import Curly.Proofs.Section.Strictness
import Curly.Proofs.Text.Lines
import Curly.Proofs.Text.Order
import Curly.Proofs.Text.Place
import Curly.Rule
import Curly.Script.Constant
import Curly.Script.Eval
import Curly.Script.Expr
import Curly.Script.Filter
import Curly.Script.Lexeme
import Curly.Script.Operator
import Curly.Script.Piece
import Curly.Script.Stmt
import Curly.Segment
import Curly.Session
import Curly.Source
import Curly.Template.Basic
import Curly.Template.Stock
import Curly.Text.Basic
import Curly.Text.Blank
import Curly.Text.Case
import Curly.Text.CaseProperty
import Curly.Text.CaseTable
import Curly.Text.Entity
import Curly.Text.Position
import Curly.Text.Quoted
import Curly.Text.Visible
import Curly.Token
import Curly.Value.Access
import Curly.Value.Arithmetic
import Curly.Value.Basic
import Curly.Value.Compare
import Curly.Yaml.Basic
import Curly.Yaml.Node
import Curly.Yaml.Scalar
import Curly.Yaml.Tag
import Curly.Yaml.Token
import Curly.Proofs.Rule.Dispatch
