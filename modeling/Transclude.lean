import Transclude.Tree.Basic
import Transclude.Tree.Parts
import Transclude.Tree.Listing
import Transclude.Tree.Printer
import Transclude.Tree.Builder
import Transclude.Tree.Traversal
import Transclude.Text.Utf8
import Transclude.Text.LineIndex
import Transclude.Text.Hex
import Transclude.Text.Quoted
import Transclude.Text.Blank
import Transclude.Text.Hidden
import Transclude.Text.Escaped
import Transclude.Path
import Transclude.Disk
import Transclude.Json.Number
import Transclude.Json.Value
import Transclude.Json.Fault
import Transclude.Json.Scalar
import Transclude.Json.Reader
import Transclude.Decimal.Shortest
import Transclude.Toml.Value
import Transclude.Toml.Scalar
import Transclude.Toml.Reader
import Transclude.Toml.Printer
import Transclude.Source
import Transclude.Program
import Transclude.Marker
import Transclude.Failure
import Transclude.Literal
import Transclude.Destructuring
import Transclude.Expansion
import Transclude.Session
import Transclude.Settings
import Transclude.Proofs.Result
import Transclude.Proofs.Json.Number
import Transclude.Proofs.Json.Normal
import Transclude.Proofs.Json.Rules
import Transclude.Proofs.Json.Grammar
import Transclude.Proofs.Json.Spelling
import Transclude.Proofs.Json.Acceptance
import Transclude.Proofs.Text.Quoted
import Transclude.Proofs.Quotation
import Transclude.Proofs.Text.Utf8
import Transclude.Proofs.Text.IllFormed
import Transclude.Proofs.Text.Position
import Transclude.Proofs.Text.LineIndex
import Transclude.Proofs.Location
import Transclude.Proofs.Json.Written
import Transclude.Proofs.Json.Range
import Transclude.Proofs.Literal
import Transclude.Proofs.RoundTrip
import Transclude.Proofs.Numerals
import Transclude.Proofs.LiteralTree
import Transclude.Proofs.Script
import Transclude.Proofs.Destructuring
import Transclude.Proofs.Expansion
import Transclude.Proofs.Failure
import Transclude.Proofs.Tree.Sites
import Transclude.Proofs.Tree.Plan
import Transclude.Proofs.Tree.Layout
import Transclude.Proofs.Tree.Alike
import Transclude.Proofs.Session.Course
import Transclude.Proofs.Session.Results
import Transclude.Proofs.Session.Exactness
import Transclude.Proofs.Session.Failing
import Transclude.Proofs.Session.Blame
import Transclude.Proofs.Session.Independence
import Transclude.Proofs.Session.Idempotence
import Transclude.Proofs.Session.Layout
import Transclude.Proofs.Tree.Rebuilding
import Transclude.Proofs.Tree.Visits
import Transclude.Proofs.Disk
import Transclude.Proofs.Resolution
import Transclude.Proofs.Session.History
import Transclude.Proofs.Session.Sharing
import Transclude.Proofs.Session.Spelling
import Transclude.Proofs.Session.Destructuring
import Transclude.Proofs.Session.Verbatim
import Transclude.Proofs.Tree.Draft
import Transclude.Proofs.Tree.Numbering
