import BulkLoad.Error
import BulkLoad.Record

/-!
# What readers answer

A reader of records is asked for one record at a time, a reader of batches for one batch at a time.
Either may panic instead of answering.
-/

namespace BulkLoad

/-- What a reader of single records answers: the bytes consumed and the record, the reason why there
is no record, or a panic. -/
inductive RecordOutcome where
  | record (bytes : Nat) (record : Record)
  | error (error : ReadError)
  | panicked (message : String)
deriving DecidableEq

/-- The answer to a request for a batch: the units of the source that were consumed and the records
that came of them, the reason why there is no batch, or a panic of the reader. -/
inductive BatchOutcome where
  | batch (units : Nat) (records : Records)
  | error (error : ReadError)
  | panicked (message : String)
deriving DecidableEq

/-- The message with which the reader panicked, if it did. -/
def BatchOutcome.panic? : BatchOutcome → Option String
  | panicked message => some message
  | batch .. | error .. => none

end BulkLoad
