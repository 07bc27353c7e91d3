import BulkLoad.Csv.Reader
import BulkLoad.Duration.Text
import BulkLoad.Entity
import BulkLoad.InMemory.Files
import BulkLoad.InMemory.Pool
import BulkLoad.InMemory.Table
import BulkLoad.Json.Printer
import BulkLoad.Manager.Step
import BulkLoad.PendingUnits
import BulkLoad.Reader.Query
import BulkLoad.Reader.Stream
import BulkLoad.Rehearsal.Builders
import BulkLoad.Rehearsal.Convertors
import BulkLoad.Rehearsal.Pool
import BulkLoad.Rehearsal.Server
import BulkLoad.Rehearsal.Session
import BulkLoad.Rehearsal.Source
import BulkLoad.Stats.Call
import BulkLoad.Stats.Text
import BulkLoad.Proofs.Manager.Journal
import BulkLoad.Proofs.Manager.Ledger
import BulkLoad.Proofs.Manager.Books
import BulkLoad.Proofs.Manager.Accounting
import BulkLoad.Proofs.Manager.Delivery
import BulkLoad.Proofs.Csv.Accounting
import BulkLoad.Proofs.Csv.Failure
import BulkLoad.Proofs.Manager.Failure
import BulkLoad.Proofs.Manager.ClientPool
import BulkLoad.Proofs.Manager.Window
import BulkLoad.Proofs.Manager.HookPhases
import BulkLoad.Proofs.Manager.Teardown
import BulkLoad.Proofs.Manager.Declining
import BulkLoad.Proofs.Manager.Sources
import BulkLoad.Proofs.Manager.Fates
import BulkLoad.Proofs.Manager.Losses
import BulkLoad.Proofs.Manager.Containment
import BulkLoad.Proofs.Reader.Paging
import BulkLoad.Proofs.Source.PageConditions
import BulkLoad.Proofs.Manager.Confluence
import BulkLoad.Proofs.Manager.Cancelling
import BulkLoad.Proofs.WorkerPool.Concurrency
import BulkLoad.Proofs.WorkerPool.Bookkeeping
import BulkLoad.Proofs.PendingUnits
import BulkLoad.Proofs.Manager.Progress
import BulkLoad.Proofs.Manager.Pending
import BulkLoad.Proofs.Manager.BackPressure
import BulkLoad.Proofs.Reader.Batching
import BulkLoad.Proofs.Csv.Encoding
import BulkLoad.Proofs.Csv.Pieces
import BulkLoad.Proofs.Settings.Written
import BulkLoad.Proofs.Source.Written
import BulkLoad.Proofs.Importer
import BulkLoad.Proofs.Importer.Outcome
import BulkLoad.Proofs.Manager.Batch
import BulkLoad.Proofs.Manager.Importing
import BulkLoad.Proofs.Manager.Replies
import BulkLoad.Proofs.Reader.Watermark
import BulkLoad.Proofs.Source.Columns
import BulkLoad.Proofs.Csv.Classification
import BulkLoad.Proofs.Retry.Backoff
import BulkLoad.Proofs.Settings.Rearranged
import BulkLoad.Proofs.Hook.Phase
import BulkLoad.Proofs.InMemory.Table
import BulkLoad.Proofs.Stats.Averages
