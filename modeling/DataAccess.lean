import DataAccess.Background.Drive
import DataAccess.Code.TypeReader
import DataAccess.Compile.Assembly
import DataAccess.Database.Adapter
import DataAccess.Database.Rows
import DataAccess.Engine.Scripted
import DataAccess.Storage.Store
import DataAccess.Storage.Table
import DataAccess.Proofs.Lists
import DataAccess.Proofs.Binding.Meaning
import DataAccess.Proofs.Binding.Denotation
import DataAccess.Proofs.Compile.Fields
import DataAccess.Proofs.Binding.Frames
import DataAccess.Proofs.Binding.Slots
import DataAccess.Proofs.Binding.Prepared
import DataAccess.Proofs.Binding.Fixed
import DataAccess.Proofs.Binding.Texts
import DataAccess.Proofs.Binding.Expanded
import DataAccess.Proofs.Storage.Savepoints
import DataAccess.Proofs.Storage.Programs
import DataAccess.Proofs.Storage.Nesting
import DataAccess.Proofs.Storage.AllOrNothing
import DataAccess.Proofs.Storage.Bookkeeping
import DataAccess.Proofs.Storage.Threads
import DataAccess.Proofs.Storage.Occurrences
import DataAccess.Proofs.Storage.Noting
import DataAccess.Proofs.Storage.Publishing
import DataAccess.Proofs.Storage.Published
import DataAccess.Proofs.Storage.Alone
import DataAccess.Proofs.Sql.Lookahead
import DataAccess.Proofs.Sql.Sections
import DataAccess.Proofs.Sql.Positional
import DataAccess.Proofs.Database.Bracketing
import DataAccess.Proofs.Database.Guards
import DataAccess.Proofs.Storage.Agreement
import DataAccess.Proofs.Storage.Survival
import DataAccess.Proofs.Compile.Classified
import DataAccess.Proofs.Compile.Keys
import DataAccess.Proofs.Compile.Collisions
import DataAccess.Proofs.Compile.Planned
import DataAccess.Proofs.Storage.Confined
import DataAccess.Proofs.Storage.Leftover
import DataAccess.Proofs.Database.Publishes
import DataAccess.Proofs.Background.Inbox
import DataAccess.Proofs.Background.Runs
import DataAccess.Proofs.Background.Balance
import DataAccess.Proofs.Background.Rests
import DataAccess.Proofs.Background.Driven
import DataAccess.Proofs.Rows.Meaning
import DataAccess.Proofs.Rows.Lookups
import DataAccess.Proofs.Rows.Bound
import DataAccess.Proofs.Rows.RoundTrip
import DataAccess.Proofs.Database.Delivered
import DataAccess.Proofs.Compile.Wiring
import DataAccess.Proofs.Compile.RowFunctions
import DataAccess.Proofs.Compile.Sharing
import DataAccess.Proofs.Compile.Problems
import DataAccess.Proofs.Compile.Renaming
import DataAccess.Proofs.Compile.Written
import DataAccess.Proofs.Compile.Outcome
import DataAccess.Proofs.Compile.Leaves
import DataAccess.Proofs.Compile.Composed
import DataAccess.Proofs.Background.Launched
import DataAccess.Proofs.Background.Course
import DataAccess.Proofs.Background.Reported
import DataAccess.Proofs.Reading.Meaning
import DataAccess.Proofs.Reading.Rows
import DataAccess.Proofs.Reading.Performing
import DataAccess.Proofs.Reading.Consumed
import DataAccess.Proofs.Reading.HandedOver
import DataAccess.Proofs.Reading.Arrived
import DataAccess.Proofs.Reading.Declared
import DataAccess.Proofs.Compile.Conversions
import DataAccess.Proofs.Compile.Converters
import DataAccess.Proofs.Compile.Variables
import DataAccess.Proofs.Compile.Moved
import DataAccess.Proofs.Compile.Marked
import DataAccess.Proofs.Compile.Apart
import DataAccess.Proofs.Database.Signals
import DataAccess.Proofs.Background.History
import DataAccess.Proofs.Background.Checkpoints
import DataAccess.Proofs.Background.Watched
import DataAccess.Proofs.Background.Standing
import DataAccess.Proofs.Background.Resolving
import DataAccess.Proofs.Background.Resolved
import DataAccess.Proofs.Statement.Leases
import DataAccess.Proofs.Statement.Reuse
import DataAccess.Proofs.Database.Upserting
import DataAccess.Proofs.Storage.Leasing
import DataAccess.Proofs.Storage.Upserted
import DataAccess.Proofs.Sql.FromLists
import DataAccess.Proofs.Sql.Grammar
import DataAccess.Proofs.Sql.Unread
import DataAccess.Proofs.Sql.Mentioned
import DataAccess.Proofs.Sql.RowStatements
import DataAccess.Proofs.Rows.Calls
import DataAccess.Proofs.Compile.Aligned
import DataAccess.Proofs.Compile.ReadBack
import DataAccess.Proofs.Sql.Balanced
import DataAccess.Proofs.Sql.MainVerb
import DataAccess.Proofs.Database.Repeated
import DataAccess.Proofs.Background.Observers
import DataAccess.Proofs.Shortcut.Meaning
import DataAccess.Proofs.Shortcut.Steps
import DataAccess.Proofs.Shortcut.Bodies
import DataAccess.Proofs.Shortcut.Applied
import DataAccess.Proofs.Cancellation.Handles
import DataAccess.Proofs.Cancellation.Spreading
import DataAccess.Proofs.Cancellation.Once
import DataAccess.Proofs.Rows.Stored
import DataAccess.Proofs.Rows.Steps
import DataAccess.Proofs.Compile.Registered
