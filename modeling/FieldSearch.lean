import FieldSearch.Command.Arguments
import FieldSearch.Command.Output
import FieldSearch.Command.Run
import FieldSearch.Date
import FieldSearch.Decimal.Digits
import FieldSearch.Decimal.Reading
import FieldSearch.Decimal.Shortest
import FieldSearch.Error
import FieldSearch.Grammar.Cursor
import FieldSearch.Grammar.Failure
import FieldSearch.Grammar.Operand
import FieldSearch.Grammar.Reply
import FieldSearch.Grammar.Scanner
import FieldSearch.Grammar.Scanning
import FieldSearch.Index.Basic
import FieldSearch.Index.ContextCall
import FieldSearch.Index.Execution
import FieldSearch.Json.Basic
import FieldSearch.Json.Document
import FieldSearch.Json.Reader
import FieldSearch.Json.Tagged
import FieldSearch.Json.Writer
import FieldSearch.Json.Written
import FieldSearch.Lexeme
import FieldSearch.Main
import FieldSearch.Program
import FieldSearch.Proofs.Decimal.Digits
import FieldSearch.Proofs.Decimal.Doubles
import FieldSearch.Proofs.Decimal.Nearest
import FieldSearch.Proofs.Grammar.Items
import FieldSearch.Proofs.Grammar.NegationFree
import FieldSearch.Proofs.Grammar.Offsets
import FieldSearch.Proofs.Grammar.Operand
import FieldSearch.Proofs.Grammar.Padding
import FieldSearch.Proofs.Grammar.Place
import FieldSearch.Proofs.Grammar.Scanner
import FieldSearch.Proofs.Grammar.Scanning
import FieldSearch.Proofs.Grammar.Simulation
import FieldSearch.Proofs.Grammar.Steady
import FieldSearch.Proofs.Grammar.Steps
import FieldSearch.Proofs.Grammar.Surroundings
import FieldSearch.Proofs.Grammar.Value
import FieldSearch.Proofs.Index.Compilation
import FieldSearch.Proofs.Index.ContextCall
import FieldSearch.Proofs.Index.Execution
import FieldSearch.Proofs.Index.Independence
import FieldSearch.Proofs.Program
import FieldSearch.Proofs.Records.Calls
import FieldSearch.Proofs.Records.Comparison
import FieldSearch.Proofs.Records.Containment
import FieldSearch.Proofs.Records.Integers
import FieldSearch.Proofs.Records.Selection
import FieldSearch.Proofs.Records.Sorting
import FieldSearch.Proofs.Registry
import FieldSearch.Proofs.Schema.Agreement
import FieldSearch.Proofs.Schema.Declared
import FieldSearch.Proofs.Schema.Grammars
import FieldSearch.Proofs.Schema.Registration
import FieldSearch.Proofs.Schema.Validation
import FieldSearch.Proofs.Statement.Image
import FieldSearch.Proofs.Statement.MergeLaws
import FieldSearch.Proofs.Statement.Merging
import FieldSearch.Proofs.Statement.Normalization
import FieldSearch.Proofs.Statement.Occurrences
import FieldSearch.Proofs.Statement.Persistence
import FieldSearch.Proofs.Statement.RoundTrip
import FieldSearch.Proofs.Statement.Scanning
import FieldSearch.Proofs.Statement.Shape
import FieldSearch.Proofs.Term.Canonical
import FieldSearch.Proofs.Term.Image
import FieldSearch.Proofs.Term.Literal
import FieldSearch.Proofs.Term.Normalization
import FieldSearch.Proofs.Term.Permutation
import FieldSearch.Proofs.Term.Precedence
import FieldSearch.Proofs.Term.Reading
import FieldSearch.Proofs.Term.Registry
import FieldSearch.Proofs.Term.RoundTrip
import FieldSearch.Proofs.Term.SameTree
import FieldSearch.Proofs.Term.Scanning
import FieldSearch.Proofs.Term.Shape
import FieldSearch.Proofs.Term.Store
import FieldSearch.Proofs.Text.LowerCase
import FieldSearch.Proofs.Text.Percent
import FieldSearch.Query.Basic
import FieldSearch.Query.Constant
import FieldSearch.Query.Direction
import FieldSearch.Query.Encoding
import FieldSearch.Query.Predicate
import FieldSearch.Query.Trace
import FieldSearch.Records.Evaluation
import FieldSearch.Records.Lookup
import FieldSearch.Records.Selection
import FieldSearch.Registry
import FieldSearch.Schema.Basic
import FieldSearch.Schema.Document
import FieldSearch.Schema.Encoding
import FieldSearch.Schema.Format
import FieldSearch.Schema.Reading
import FieldSearch.Schema.Search
import FieldSearch.Statement.Basic
import FieldSearch.Statement.Encoding
import FieldSearch.Statement.Merge
import FieldSearch.Statement.Persistence
import FieldSearch.Statement.Reading
import FieldSearch.Statement.Scanning
import FieldSearch.Statement.Writing
import FieldSearch.Term.Compilation
import FieldSearch.Term.Encoding
import FieldSearch.Term.Operation
import FieldSearch.Term.Reading
import FieldSearch.Term.Registry
import FieldSearch.Term.Scanning
import FieldSearch.Term.Store
import FieldSearch.Text.Blank
import FieldSearch.Text.CaseTable
import FieldSearch.Text.Hex
import FieldSearch.Text.LowerCase
import FieldSearch.Text.Percent
import FieldSearch.Text.Utf8
import FieldSearch.Toml.Document
import FieldSearch.Toml.Table
import FieldSearch.Toml.Value
import FieldSearch.Toml.Writer
import FieldSearch.Yaml.Document
import FieldSearch.Yaml.Node
import FieldSearch.Yaml.Place
import FieldSearch.Yaml.Scalar
import FieldSearch.Yaml.Tag
import FieldSearch.Yaml.Token
import FieldSearch.Yaml.Writer
