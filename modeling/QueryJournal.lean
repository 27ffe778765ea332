import QueryJournal.Failure.Object
import QueryJournal.Json.Standard
import QueryJournal.Number.Reading
import QueryJournal.Session
import QueryJournal.Settings.Shelf
import QueryJournal.Statement.Bind
import QueryJournal.Statement.Literal
import QueryJournal.Time.Parts
import QueryJournal.Proofs.Render.Chunks
import QueryJournal.Proofs.Render.Truncation
import QueryJournal.Proofs.Render.Composition
import QueryJournal.Proofs.Logging.Delivery
import QueryJournal.Proofs.Query.Line
import QueryJournal.Proofs.Query.Parameters
import QueryJournal.Proofs.Query.Recording
import QueryJournal.Proofs.Logging.Containment
import QueryJournal.Proofs.Query.Containment
import QueryJournal.Proofs.Query.LastResort
import QueryJournal.Proofs.Render.Erasure
import QueryJournal.Proofs.Query.Independence
import QueryJournal.Proofs.Query.Privacy
import QueryJournal.Proofs.Settings.Writing
import QueryJournal.Proofs.Settings.Runs
import QueryJournal.Proofs.Logging.Entries
import QueryJournal.Proofs.Json.FirstRefusal
import QueryJournal.Proofs.Json.RoundTrip
import QueryJournal.Proofs.Json.Refusals
import QueryJournal.Proofs.Logging.Structured
import QueryJournal.Proofs.Tracker.History
import QueryJournal.Proofs.Tracker.FanOut
import QueryJournal.Proofs.Text.Utf8
import QueryJournal.Proofs.Number.Digits
import QueryJournal.Proofs.Number.Nearest
import QueryJournal.Proofs.Number.Decimals
import QueryJournal.Proofs.Number.FifteenDigits
import QueryJournal.Proofs.Number.Numerals
import QueryJournal.Proofs.Number.NineDigits
import QueryJournal.Proofs.Column.Single
import QueryJournal.Proofs.Column.Integer
import QueryJournal.Proofs.Number.Context
import QueryJournal.Proofs.Column.Decimal
import QueryJournal.Proofs.Time.Calendar
import QueryJournal.Proofs.Time.Moment
import QueryJournal.Proofs.Column.Timestamp
import QueryJournal.Proofs.Text.Hex
import QueryJournal.Proofs.Wire.Uuid
import QueryJournal.Proofs.Wire.Address
import QueryJournal.Proofs.Column.Text
import QueryJournal.Proofs.Results
import QueryJournal.Proofs.Column.Malformed
import QueryJournal.Proofs.Statement.Binding
import QueryJournal.Proofs.Column.Sizes
import QueryJournal.Proofs.Render.NullText
import QueryJournal.Proofs.Statement.Nulls
import QueryJournal.Proofs.Logging.Hierarchy
import QueryJournal.Proofs.Logging.Levels
import QueryJournal.Proofs.Query.Gating
import QueryJournal.Proofs.FirstOccurrences
import QueryJournal.Proofs.Logging.Configuration
import QueryJournal.Proofs.Query.Hosts
import QueryJournal.Proofs.Render.Accounting
import QueryJournal.Proofs.Render.Endings
import QueryJournal.Proofs.Failure.Detail
