import ContentStore.Binary64.Basic
import ContentStore.Binary64.Decimal
import ContentStore.Binary64.Reading
import ContentStore.CommandLine.Arguments
import ContentStore.CommandLine.Run
import ContentStore.Config
import ContentStore.Config.Reading
import ContentStore.Directory
import ContentStore.Error
import ContentStore.Identifier
import ContentStore.Json.Basic
import ContentStore.Json.Printer
import ContentStore.Json.Reader
import ContentStore.Json.Token
import ContentStore.Main
import ContentStore.Proofs.Binary64.Rounding
import ContentStore.Proofs.Binary64.Shortest
import ContentStore.Proofs.CommandLine.Lists
import ContentStore.Proofs.CommandLine.Run
import ContentStore.Proofs.Directory
import ContentStore.Proofs.Json.Members
import ContentStore.Proofs.Json.Number
import ContentStore.Proofs.Json.Reading
import ContentStore.Proofs.Json.RoundTrip
import ContentStore.Proofs.Json.Scan
import ContentStore.Proofs.ReadBack
import ContentStore.Proofs.Sql.Alignment
import ContentStore.Proofs.Sql.Clauses
import ContentStore.Proofs.Sql.Lists
import ContentStore.Proofs.Sql.Placed
import ContentStore.Proofs.Sql.Steady
import ContentStore.Proofs.Sql.Values
import ContentStore.Proofs.Store.Backup
import ContentStore.Proofs.Store.Memory
import ContentStore.Proofs.Store.Records
import ContentStore.Proofs.Store.Refinement
import ContentStore.Proofs.Store.Run
import ContentStore.Proofs.Timestamp.Calendar
import ContentStore.Proofs.Timestamp.Stamp
import ContentStore.Record
import ContentStore.Sql.Condition
import ContentStore.Sql.Parse
import ContentStore.Sql.Run
import ContentStore.Sql.Scan
import ContentStore.Sql.Statement
import ContentStore.Sql.Token
import ContentStore.Store.Basic
import ContentStore.Store.Opening
import ContentStore.Store.Query
import ContentStore.Table
import ContentStore.Text.Blank
import ContentStore.Text.Case
import ContentStore.Text.Digits
import ContentStore.Text.Letter
import ContentStore.Text.Lowercase
import ContentStore.Timestamp.Basic
import ContentStore.Timestamp.Calendar
import ContentStore.Yaml.Cursor
import ContentStore.Yaml.Event
import ContentStore.Yaml.Fields
import ContentStore.Yaml.Printer
import ContentStore.Yaml.Scalar
import ContentStore.Yaml.Style
import ContentStore.Yaml.Token
import ContentStore.Proofs.Store.Forward
import ContentStore.Proofs.Sql.Effect
import ContentStore.Proofs.Steps
import ContentStore.Proofs.Changes
import ContentStore.Proofs.StoreMade
import ContentStore.Proofs.Sql.Rendered
import ContentStore.Proofs.Untouched
import ContentStore.Proofs.Layout
import ContentStore.Proofs.Sql.Identity
import ContentStore.Proofs.Json.NumberText
import ContentStore.Proofs.Sql.Accepted
import ContentStore.Proofs.Sql.SortOrder
import ContentStore.Proofs.Sql.WhereClause
import ContentStore.Proofs.Sql.Inserted
import ContentStore.Proofs.Text.Lowercase
import ContentStore.Proofs.Sql.Scanning
import ContentStore.Proofs.Store.Search
import ContentStore.Proofs.Sql.Pages
import ContentStore.Proofs.Sql.Active
import ContentStore.Proofs.Timestamp.TextOrder
import ContentStore.Proofs.Store.FirstEntry
import ContentStore.Proofs.Json.LooseEquality
import ContentStore.Proofs.Sql.SameButCase
import ContentStore.Proofs.Sql.LetterCase
import ContentStore.Proofs.Sql.Segments
import ContentStore.Proofs.Sql.SkippedClauses
