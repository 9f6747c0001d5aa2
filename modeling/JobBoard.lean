import JobBoard.Call.Activity
import JobBoard.Call.Basic
import JobBoard.Call.Edges
import JobBoard.Call.NamedEdges
import JobBoard.Call.Names
import JobBoard.Call.Resolver
import JobBoard.Call.Rival
import JobBoard.Call.Search
import JobBoard.Cancel.Reason
import JobBoard.Cancel.Signal
import JobBoard.Cancel.TokenTable
import JobBoard.Console.Command
import JobBoard.Console.Reply
import JobBoard.Console.Setting
import JobBoard.Console.Statement
import JobBoard.Error.BoardError
import JobBoard.Error.Refusal
import JobBoard.Error.StoreError
import JobBoard.Error.WriteFailure
import JobBoard.Host.Address
import JobBoard.Host.Folders
import JobBoard.Host.Path
import JobBoard.Host.Registry
import JobBoard.Logging
import JobBoard.Logging.File
import JobBoard.Model.Dictionary
import JobBoard.Model.EdgeKind
import JobBoard.Model.Vacancy
import JobBoard.Names
import JobBoard.Number.Binary64
import JobBoard.Number.Rounding
import JobBoard.Number.Wide
import JobBoard.Observe.Event
import JobBoard.Observe.Level
import JobBoard.Proofs.Call.Acceptance
import JobBoard.Proofs.Call.Attachment
import JobBoard.Proofs.Call.Batch
import JobBoard.Proofs.Call.BlankNames
import JobBoard.Proofs.Call.Cancellation
import JobBoard.Proofs.Call.Clearing
import JobBoard.Proofs.Call.Conversation
import JobBoard.Proofs.Call.DictionaryReads
import JobBoard.Proofs.Call.Discretion
import JobBoard.Proofs.Call.Entries
import JobBoard.Proofs.Call.Finding
import JobBoard.Proofs.Call.FirstFailure
import JobBoard.Proofs.Call.Guard
import JobBoard.Proofs.Call.Interruption
import JobBoard.Proofs.Call.NameLookup
import JobBoard.Proofs.Call.NamedAttachment
import JobBoard.Proofs.Call.Paging
import JobBoard.Proofs.Call.Protocol
import JobBoard.Proofs.Call.Race
import JobBoard.Proofs.Call.Reading
import JobBoard.Proofs.Call.Replacement
import JobBoard.Proofs.Call.Request
import JobBoard.Proofs.Call.Resolution
import JobBoard.Proofs.Call.Search
import JobBoard.Proofs.Call.Specializations
import JobBoard.Proofs.Call.Telling
import JobBoard.Proofs.Call.Undisturbed
import JobBoard.Proofs.Call.Unhindered
import JobBoard.Proofs.Call.Unobstructed
import JobBoard.Proofs.Call.WholePages
import JobBoard.Proofs.Cancel.Families
import JobBoard.Proofs.Console.Cancellation
import JobBoard.Proofs.Console.Events
import JobBoard.Proofs.Console.Isolation
import JobBoard.Proofs.Console.Logging
import JobBoard.Proofs.Console.Turns
import JobBoard.Proofs.Error.Classification
import JobBoard.Proofs.Host.Folders
import JobBoard.Proofs.Host.Path
import JobBoard.Proofs.Logging.Quotation
import JobBoard.Proofs.Logging.Status
import JobBoard.Proofs.Names
import JobBoard.Proofs.Names.Canonical
import JobBoard.Proofs.Observe.Level
import JobBoard.Proofs.Observe.Lines
import JobBoard.Proofs.Search.Filters
import JobBoard.Proofs.Search.Literal
import JobBoard.Proofs.Search.Matches
import JobBoard.Proofs.Search.Pages
import JobBoard.Proofs.Search.Placeholders
import JobBoard.Proofs.Search.Shape
import JobBoard.Proofs.Store.Conformance
import JobBoard.Proofs.Store.Consistency
import JobBoard.Proofs.Store.Insertion
import JobBoard.Proofs.Store.Migration
import JobBoard.Proofs.Store.MigrationRace
import JobBoard.Proofs.Store.PlainTables
import JobBoard.Proofs.Store.Scripts
import JobBoard.Proofs.Store.Steps
import JobBoard.Proofs.Store.Tables
import JobBoard.Proofs.Store.Transactions
import JobBoard.Proofs.Store.Work
import JobBoard.Proofs.Text.ByteOrder
import JobBoard.Proofs.Text.Like
import JobBoard.Proofs.Text.Lowercase
import JobBoard.Proofs.Text.Occurrence
import JobBoard.Proofs.Text.OneLine
import JobBoard.Proofs.Text.Words
import JobBoard.Search.Composer
import JobBoard.Search.Criteria
import JobBoard.Search.Execute
import JobBoard.Settings
import JobBoard.Store.Cell
import JobBoard.Store.Connection
import JobBoard.Store.Database
import JobBoard.Store.Effect
import JobBoard.Store.Insert
import JobBoard.Store.Integrity
import JobBoard.Store.Migration
import JobBoard.Store.Relation
import JobBoard.Store.Remove
import JobBoard.Store.Row
import JobBoard.Store.Schema
import JobBoard.Store.Work
import JobBoard.Text.Blank
import JobBoard.Text.CaseTable
import JobBoard.Text.Like
import JobBoard.Text.Lowercase
import JobBoard.Text.OneLine
import JobBoard.Wire.Numeral
import JobBoard.Wire.Printer
import JobBoard.Wire.Reader
import JobBoard.Wire.Records
import JobBoard.Wire.Value
