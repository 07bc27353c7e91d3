import BulkLoad.Client
import BulkLoad.Reader.Outcome

/-!
# What the outside says

The program waits for sources, importers, the client pool and the clock. An `Answer` ends such a
wait. Two answers come from within: `go` when what was waited for has happened inside the program,
and `cancelled` when the wait ends because the run is being stopped.
-/

namespace BulkLoad

/-- What ends a wait: the program itself, a source that was opened or closed, the size of a source,
a batch, an importer that is ready, the client pool or a client that was opened or closed, a
statement that was executed, a panic while it was, or time. -/
inductive Answer where
  | go
  | cancelled
  | source (result : Except SourceError Unit)
  | size (result : Except SourceError Nat)
  | batch (outcome : BatchOutcome)
  | ready
  | client (result : Except ClientError Unit)
  | reply (reply : Reply)
  | panicked (message : String)
  | elapsed

end BulkLoad
