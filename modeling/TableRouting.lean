import TableRouting.Batch.Coordinator
import TableRouting.Batch.Error
import TableRouting.Batch.Outcome
import TableRouting.Cache.AccessList
import TableRouting.Cache.Basic
import TableRouting.Cache.Cleaner
import TableRouting.Cache.Statistics
import TableRouting.Cache.Workshop
import TableRouting.CommandLine.Arguments
import TableRouting.CommandLine.Dispatch
import TableRouting.CommandLine.Failure
import TableRouting.CommandLine.Report
import TableRouting.CommandLine.Run
import TableRouting.Config.Basic
import TableRouting.Config.Decode
import TableRouting.Config.Encode
import TableRouting.Config.File
import TableRouting.Config.Issue
import TableRouting.Decimal.Fixed
import TableRouting.Decimal.Shortest
import TableRouting.ErrorRecord.Cause
import TableRouting.ErrorRecord.Export
import TableRouting.ErrorRecord.Log
import TableRouting.FileTree.Basic
import TableRouting.FileTree.Host
import TableRouting.FileTree.Path
import TableRouting.Grouping
import TableRouting.Json.Number
import TableRouting.Json.Pointer
import TableRouting.Json.Printer
import TableRouting.Json.Reader
import TableRouting.Json.Token
import TableRouting.Json.Value
import TableRouting.JsonLines.Connection
import TableRouting.JsonLines.Row
import TableRouting.JsonLines.Source
import TableRouting.JsonLines.Statement
import TableRouting.JsonLines.TableFile
import TableRouting.JsonLines.TableWriter
import TableRouting.Main
import TableRouting.Metrics.Basic
import TableRouting.Metrics.Exposition
import TableRouting.Operation
import TableRouting.Record
import TableRouting.RecordFile
import TableRouting.Sink.Basic
import TableRouting.Sink.Error
import TableRouting.Store.Basic
import TableRouting.Store.Error
import TableRouting.Store.Spec
import TableRouting.Template.Basic
import TableRouting.Template.Error
import TableRouting.Template.Resolve
import TableRouting.Text.Blank
import TableRouting.Text.CaseTable
import TableRouting.Text.Cut
import TableRouting.Text.Lowercase
import TableRouting.Toml.Document
import TableRouting.Toml.Lexical
import TableRouting.Toml.Quoted
import TableRouting.Toml.Scalar
import TableRouting.Toml.Table
import TableRouting.Proofs.Cache.AccessOrder
import TableRouting.Proofs.Cache.Contents
import TableRouting.Proofs.Cache.Coherence
import TableRouting.Proofs.Cache.Interleaving
import TableRouting.Proofs.Cache.Consistency
import TableRouting.Proofs.Grouping
import TableRouting.Proofs.JsonLines.Writing
import TableRouting.Proofs.JsonLines.Counting
import TableRouting.Proofs.FileTree.Mirror
import TableRouting.Proofs.Sink.World
import TableRouting.Proofs.Sink.Settled
import TableRouting.Proofs.Sink.Lookup
import TableRouting.Proofs.Batch.Plan
import TableRouting.Proofs.Batch.Following
import TableRouting.Proofs.Sink.Opening
import TableRouting.Proofs.Sink.Transparency
import TableRouting.Proofs.FileTree.Changes
import TableRouting.Proofs.FileTree.Paths
import TableRouting.Proofs.JsonLines.Committing
import TableRouting.Proofs.Batch.Accounts
import TableRouting.Proofs.Batch.Conservation
import TableRouting.Proofs.Batch.Failure
import TableRouting.Proofs.Sink.Service
import TableRouting.Proofs.Sink.Outcomes
import TableRouting.Proofs.Cache.Sharing
import TableRouting.Proofs.Cache.Flights
import TableRouting.Proofs.Cache.SingleFlight
import TableRouting.Proofs.Cache.Custody
import TableRouting.Proofs.Cache.Release
import TableRouting.Proofs.Cache.Eviction
import TableRouting.Proofs.Cache.Register
import TableRouting.Proofs.Cache.Refinement
import TableRouting.Proofs.Batch.Transaction
import TableRouting.Proofs.Regrouping
import TableRouting.Proofs.JsonLines.Modes
import TableRouting.Proofs.Batch.Trail
import TableRouting.Proofs.Batch.Fates
import TableRouting.Proofs.Batch.Course
import TableRouting.Proofs.Batch.Isolation
import TableRouting.Proofs.Batch.Leftovers
import TableRouting.Proofs.Batch.Verdicts
import TableRouting.Proofs.Sink.Cuts
import TableRouting.Proofs.Cache.Detachment
import TableRouting.Proofs.Cache.Ledger
import TableRouting.Proofs.Cache.Counters
import TableRouting.Proofs.Json.Printer
import TableRouting.Proofs.Sink.Confinement
import TableRouting.Proofs.Sink.Gate
import TableRouting.Proofs.Sink.Teardown
import TableRouting.Proofs.JsonLines.Chunking
import TableRouting.Proofs.Text.Trimming
import TableRouting.Proofs.Template.Pieces
import TableRouting.Proofs.Template.References
import TableRouting.Proofs.Template.Grammar
import TableRouting.Proofs.Template.Printing
import TableRouting.Proofs.Metrics.Postings
import TableRouting.Proofs.Metrics.AnsweredBatches
import TableRouting.Proofs.Metrics.Tally
import TableRouting.Proofs.Metrics.Samples
import TableRouting.Proofs.Metrics.ReadBack
import TableRouting.Proofs.Metrics.Exports
import TableRouting.Proofs.Blocks
import TableRouting.Proofs.Pairing
import TableRouting.Proofs.Json.Ordered
import TableRouting.Proofs.Config.Mappings
import TableRouting.Proofs.JsonLines.Extraction
import TableRouting.Proofs.JsonLines.MappedBlocks
import TableRouting.Proofs.JsonLines.History
import TableRouting.Proofs.JsonLines.Prepared
import TableRouting.Proofs.JsonLines.Sources
import TableRouting.Proofs.JsonLines.Columns
import TableRouting.Proofs.JsonLines.TransactionLog
import TableRouting.Proofs.ErrorRecord.Exporting
import TableRouting.Proofs.Cache.Maintenance
import TableRouting.Proofs.Cache.Candor
import TableRouting.Proofs.Batch.Naming
import TableRouting.Proofs.Batch.Attribution
import TableRouting.Proofs.Batch.Audit
import TableRouting.Proofs.Batch.Routing
import TableRouting.Proofs.Cache.Shelf
import TableRouting.Proofs.Text.Folding
import TableRouting.Proofs.Cache.Bindings
import TableRouting.Proofs.Template.Substitution
import TableRouting.Proofs.Text.Cutting
import TableRouting.Proofs.Text.Encoding
import TableRouting.Proofs.Json.RoundTrip
import TableRouting.Proofs.RecordFile.Lines
import TableRouting.Proofs.RecordFile.Reading
import TableRouting.Proofs.Cache.Supply
import TableRouting.Proofs.Batch.GroupCalls
import TableRouting.Proofs.Batch.GroupCourses
import TableRouting.Proofs.Batch.GroupReturns
import TableRouting.Proofs.Batch.GroupWrites
import TableRouting.Proofs.Batch.Sorting
import TableRouting.Proofs.Config.Faults
import TableRouting.Proofs.Sink.Acceptance
import TableRouting.Proofs.CommandLine.Custody
import TableRouting.Proofs.CommandLine.Stopping
import TableRouting.Proofs.CommandLine.Totals
import TableRouting.Proofs.CommandLine.Dispatching
import TableRouting.Proofs.Config.Fields
import TableRouting.Proofs.Config.Spellings
