import Failover.Access.Build
import Failover.Access.Execute
import Failover.Binding.Basic
import Failover.Binding.Engine
import Failover.Binding.MySql
import Failover.Binding.Postgres
import Failover.Binding.Sqlite
import Failover.Calendar.Date
import Failover.Calendar.Local
import Failover.Calendar.Reading
import Failover.Calendar.Time
import Failover.Calendar.Timestamp
import Failover.Cluster.Health
import Failover.Cluster.Policy
import Failover.Cluster.Route
import Failover.Column.Category
import Failover.Column.NativeType
import Failover.Column.Numeric
import Failover.Command.Basic
import Failover.Command.DeclaredType
import Failover.Command.Outputs
import Failover.Config.Basic
import Failover.Config.Json
import Failover.Config.Shorthand
import Failover.Embedded.Affinity
import Failover.Embedded.ColumnType
import Failover.Embedded.Database
import Failover.Embedded.Declaration
import Failover.Embedded.Stored
import Failover.Engine
import Failover.Failure
import Failover.Json.Basic
import Failover.Json.Document
import Failover.Json.Printer
import Failover.Json.Reader
import Failover.Number.Decimal
import Failover.Number.Floating
import Failover.Number.Numeral
import Failover.Number.Shortest
import Failover.Number.Significant
import Failover.Outcome.Basic
import Failover.Outcome.Progress
import Failover.Outcome.Stream
import Failover.Proofs.Access.AtMostOnce
import Failover.Proofs.Access.Exchanges
import Failover.Proofs.Access.Listing
import Failover.Proofs.Access.Lookup
import Failover.Proofs.Access.Outputs
import Failover.Proofs.Access.Reporting
import Failover.Proofs.Access.Runner
import Failover.Proofs.Access.Wired
import Failover.Proofs.Binding.Captured
import Failover.Proofs.Binding.Current
import Failover.Proofs.Binding.Native
import Failover.Proofs.Binding.Procedure
import Failover.Proofs.Binding.Reading
import Failover.Proofs.Binding.Styles
import Failover.Proofs.Binding.Values
import Failover.Proofs.Binding.Variables
import Failover.Proofs.Calendar.DayNumber
import Failover.Proofs.Calendar.Reading
import Failover.Proofs.Cluster.Cooldown
import Failover.Proofs.Cluster.Declined
import Failover.Proofs.Cluster.Order
import Failover.Proofs.Cluster.Rotation
import Failover.Proofs.Cluster.Route
import Failover.Proofs.Column.Decoded
import Failover.Proofs.Column.Groups
import Failover.Proofs.Command.Ordered
import Failover.Proofs.Command.Outputs
import Failover.Proofs.Command.Stored
import Failover.Proofs.Config.Pool
import Failover.Proofs.Config.Reading
import Failover.Proofs.Config.Record
import Failover.Proofs.Config.RoundTrip
import Failover.Proofs.Config.Shorthand
import Failover.Proofs.Config.Valid
import Failover.Proofs.Connection.Count
import Failover.Proofs.Connection.Notices
import Failover.Proofs.Connection.Once
import Failover.Proofs.Connection.Repository
import Failover.Proofs.Connection.Schedule
import Failover.Proofs.Effect.Keeps
import Failover.Proofs.Health.Alone
import Failover.Proofs.Health.Attempt
import Failover.Proofs.Health.Counters
import Failover.Proofs.Health.Fallback
import Failover.Proofs.Health.Latency
import Failover.Proofs.Health.Operation
import Failover.Proofs.Health.Reporting
import Failover.Proofs.Health.Unreported
import Failover.Proofs.Json.Meaning
import Failover.Proofs.Json.Numeral
import Failover.Proofs.Json.Shorten
import Failover.Proofs.Json.Text
import Failover.Proofs.Number.Digits
import Failover.Proofs.Number.Literal
import Failover.Proofs.Number.Nearest
import Failover.Proofs.Number.Rounding
import Failover.Proofs.Number.Shortest
import Failover.Proofs.Operation.Settle
import Failover.Proofs.Operation.Spend
import Failover.Proofs.Operation.Start
import Failover.Proofs.Outcome.Sources
import Failover.Proofs.Outcome.Stream
import Failover.Proofs.Reader.Cursor
import Failover.Proofs.Reader.Ended
import Failover.Proofs.Reader.Enumerated
import Failover.Proofs.Reader.Reporting
import Failover.Proofs.Reader.Walk
import Failover.Proofs.Session.Bound
import Failover.Proofs.Session.Reporting
import Failover.Proofs.Session.Use
import Failover.Proofs.Sql.Grammar
import Failover.Proofs.Sql.Quoted
import Failover.Proofs.Sql.Replacement
import Failover.Proofs.Sql.Rules
import Failover.Proofs.Sql.Safe
import Failover.Proofs.Text.Hex
import Failover.Proofs.Text.Lower
import Failover.Proofs.Text.Trim
import Failover.Proofs.Transaction.Abandon
import Failover.Proofs.Transaction.Release
import Failover.Proofs.Transaction.Window
import Failover.Proofs.Url.Password
import Failover.Proofs.Value.Range
import Failover.Proofs.Value.Temporal
import Failover.Proofs.Value.Whole
import Failover.Provider.Basic
import Failover.Provider.ConnectionString
import Failover.Provider.Registry
import Failover.Reader.Basic
import Failover.Reader.Cursor
import Failover.Repository
import Failover.Session.Basic
import Failover.Session.Lifecycle
import Failover.Session.Operation
import Failover.Sql.Identifier
import Failover.Sql.Placeholder
import Failover.Sql.Token
import Failover.Text.Base64
import Failover.Text.Blank
import Failover.Text.CaseTable
import Failover.Text.Fold
import Failover.Text.Hex
import Failover.Text.Lower
import Failover.Text.Quoted
import Failover.Text.Split
import Failover.Text.Utf8
import Failover.Url.Address
import Failover.Url.Basic
import Failover.Url.Form
import Failover.Url.Parse
import Failover.Url.Percent
import Failover.Uuid
import Failover.Value.Basic
import Failover.Value.Conversion
import Failover.Value.Native
import Failover.Value.TargetName
import Failover.Value.Text
import Failover.Workspace.Basic
import Failover.Workspace.Request
import Failover.World.Backend
import Failover.World.Basic
import Failover.World.Event
import Failover.World.Script
import Failover.World.Task
import Failover.World.Time
