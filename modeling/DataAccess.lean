import DataAccess.Document.Extended
import DataAccess.Document.Faults
import DataAccess.Document.Memory
import DataAccess.Document.Server
import DataAccess.Main
import DataAccess.Sql.Scripted
import DataAccess.Sql.Session
import DataAccess.Proofs.Sql.Lexing
import DataAccess.Proofs.Sql.Placeholders
import DataAccess.Proofs.Query.Resolving
import DataAccess.Proofs.Sql.Sources
import DataAccess.Proofs.Query.Joins
import DataAccess.Proofs.Action
import DataAccess.Proofs.Schema.Registry
import DataAccess.Proofs.Calendar.DayNumber
import DataAccess.Proofs.Calendar.NativeForm
import DataAccess.Proofs.Schema.ReadBack
import DataAccess.Proofs.Document.Inference
import DataAccess.Proofs.Document.Stored
import DataAccess.Proofs.Document.Keys
import DataAccess.Proofs.Document.ServerKeys
import DataAccess.Proofs.Schema.Codec
import DataAccess.Proofs.Schema.Links
import DataAccess.Proofs.Engine.InMemory
import DataAccess.Proofs.Engine.Serving
import DataAccess.Proofs.Engine.Writes
import DataAccess.Proofs.Engine.Guarded
import DataAccess.Proofs.Query.Alike
import DataAccess.Proofs.Query.Markers
import DataAccess.Proofs.Engine.Paging
import DataAccess.Proofs.Text.Cutting
import DataAccess.Proofs.Query.Merging
import DataAccess.Proofs.Query.Compiling
import DataAccess.Proofs.Json.Same
import DataAccess.Proofs.Document.Constraints
import DataAccess.Proofs.Engine.Batches
import DataAccess.Proofs.Engine.Isolation
import DataAccess.Proofs.Sql.ValueFree
import DataAccess.Proofs.Schema.Interleaving
import DataAccess.Proofs.Engine.Recorded
import DataAccess.Proofs.Engine.Robust
import DataAccess.Proofs.Engine.Reach
import DataAccess.Proofs.Engine.Agreement
import DataAccess.Proofs.Datasource.Nesting
import DataAccess.Proofs.Datasource.BaseColumns
import DataAccess.Proofs.Query.Paths
import DataAccess.Proofs.Document.Distinct
import DataAccess.Proofs.Document.Joining
import DataAccess.Proofs.Document.RelationFilters
import DataAccess.Proofs.Query.Searching
import DataAccess.Proofs.Query.Written
import DataAccess.Proofs.Cli.DryRun
import DataAccess.Proofs.Query.Integers
import DataAccess.Proofs.Document.Related
import DataAccess.Proofs.Process
import DataAccess.Proofs.Engine.Stepwise
import DataAccess.Proofs.Engine.SideBySide
import DataAccess.Proofs.Engine.Sampled
import DataAccess.Proofs.Engine.Selected
import DataAccess.Proofs.Document.Addressing
import DataAccess.Proofs.Query.Following
import DataAccess.Proofs.Document.RequiredFields
import DataAccess.Proofs.Engine.GivenKey
import DataAccess.Proofs.Query.Framing
import DataAccess.Proofs.Query.Routes
import DataAccess.Proofs.Query.Normalising
import DataAccess.Proofs.Sql.Spelling
import DataAccess.Proofs.Query.Validated
import DataAccess.Proofs.Calendar.Chronology
import DataAccess.Proofs.Document.Conditions
import DataAccess.Proofs.Query.Pages
import DataAccess.Proofs.Document.Sorting
import DataAccess.Proofs.Schema.Validating
import DataAccess.Proofs.Engine.Uniqueness
import DataAccess.Proofs.Engine.Summary
import DataAccess.Proofs.Sql.Literals
import DataAccess.Proofs.Sql.Definitions
import DataAccess.Proofs.Sql.Creating
import DataAccess.Proofs.Engine.ReadingBack
