import Staging.Failure
import Staging.Files
import Staging.Json.Basic
import Staging.Json.Escape
import Staging.Json.Numeric
import Staging.Json.Order
import Staging.Json.Parser
import Staging.Json.Plain
import Staging.Json.Pointer
import Staging.Json.Printer
import Staging.Log.Hierarchy
import Staging.Log.Level
import Staging.Log.Record
import Staging.Log.Span
import Staging.Main
import Staging.Metrics.Registry
import Staging.Metrics.Series
import Staging.Number.Double
import Staging.Number.Notation
import Staging.Number.Reading
import Staging.Number.Rounded
import Staging.Number.Shortest
import Staging.Page.Event
import Staging.Page.Reading
import Staging.Page.Record
import Staging.Page.Token
import Staging.Program
import Staging.Redaction
import Staging.Schema.Collection
import Staging.Schema.Inference
import Staging.Schema.Naming
import Staging.Schema.Pattern
import Staging.Schema.Report
import Staging.Schema.Statistics
import Staging.Schema.Table
import Staging.Session
import Staging.Settings.Basic
import Staging.Settings.Environment
import Staging.Sql.Definition
import Staging.Sql.Dialect
import Staging.Sql.Insert
import Staging.Sql.Row
import Staging.Stage.Pass
import Staging.Stage.Progress
import Staging.Stage.Table
import Staging.Stage.Tables
import Staging.Text.Blank
import Staging.Text.Cased
import Staging.Text.Digit
import Staging.Text.Hex
import Staging.Text.Printable
import Staging.Text.Quoted
import Staging.Text.Stride
import Staging.Text.Utf8
import Staging.Proofs.Number.Decimal
import Staging.Proofs.Json.Members
import Staging.Proofs.Json.Numeral
import Staging.Proofs.Json.RoundTrip
import Staging.Proofs.Page.Assembly
import Staging.Proofs.Page.Grammar
import Staging.Proofs.Session
import Staging.Proofs.Sql.Row
import Staging.Proofs.Sql.Scan
import Staging.Proofs.Sql.Tuple
import Staging.Proofs.Page.Reading
import Staging.Proofs.Page.Breaks
import Staging.Proofs.Stage.Ledger
import Staging.Proofs.Stage.Load
import Staging.Proofs.Stage.Passes
import Staging.Proofs.Stage.Conservation
import Staging.Proofs.Json.Canonical
import Staging.Proofs.Schema.Statistics
import Staging.Proofs.Schema.Inference
import Staging.Proofs.Sql.Fitting
import Staging.Proofs.Redaction
import Staging.Proofs.Schema.Columns
import Staging.Proofs.Sql.Definition
import Staging.Proofs.Sql.Redacted
import Staging.Proofs.Stage.Failures
import Staging.Proofs.Session.Later
import Staging.Proofs.Stage.Milestones
import Staging.Proofs.Stage.Course
import Staging.Proofs.Stage.Order
import Staging.Proofs.Stage.Causes
import Staging.Proofs.Stage.Later
import Staging.Proofs.Stage.Turns
import Staging.Proofs.Stage.Transactions
import Staging.Proofs.Stage.Marks
import Staging.Proofs.Stage.Independence
import Staging.Proofs.Stage.Continuing
import Staging.Proofs.Schema.Arrival
import Staging.Proofs.Stage.Arrival
import Staging.Proofs.Sql.Split
import Staging.Proofs.Sql.Batching
import Staging.Proofs.Schema.MemberOrder
import Staging.Proofs.Page.Prefix
import Staging.Proofs.Stage.Delivery
import Staging.Proofs.Schema.Selection
import Staging.Proofs.Stage.Inference
import Staging.Proofs.Json.Layouts
import Staging.Proofs.Sql.Reports
import Staging.Proofs.Sql.Document
import Staging.Proofs.Sql.Substitution
import Staging.Proofs.Schema.Collection
import Staging.Proofs.Schema.Growth
import Staging.Proofs.Json.Pointer
import Staging.Proofs.Json.Scalars
import Staging.Proofs.Redaction.Visits
import Staging.Proofs.Redaction.Personal
import Staging.Proofs.Schema.Pattern
import Staging.Proofs.Page.Strings
import Staging.Proofs.Number.Integer
import Staging.Proofs.Stage.Gate
import Staging.Proofs.Schema.Naming
import Staging.Proofs.Files
