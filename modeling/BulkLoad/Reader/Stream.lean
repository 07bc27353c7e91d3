import BulkLoad.Convertor
import BulkLoad.Log
import BulkLoad.Reader.Outcome
import BulkLoad.Settings

/-!
# Batches from a reader of single records

A `StreamReader` collects records until it has a batch and then converts them. Bad records are
skipped and their bytes counted. Any other error ends the batch: it is reported when nothing was
consumed before it, and otherwise what was consumed is returned and the error only logged. A panic
loses the record reader for good. The bytes of a batch are counted in a word of 64 bits, which wraps
around.
-/

namespace BulkLoad

/-- A reader of batches. `upcoming` is what its record reader is going to answer, after which it
answers that the source is exhausted; there is none once the record reader is lost. -/
structure StreamReader where
  sourceName : String
  convert : Convertor
  batch : Nat
  upcoming : Option (List RecordOutcome)

namespace StreamReader

/-- A reader of batches of a given size; a size of zero stands for the default. -/
def of (sourceName : String) (convert : Convertor) (batch : Nat) (upcoming : List RecordOutcome) :
    StreamReader :=
  { sourceName, convert, batch := if batch == 0 then defaultBatch else batch,
    upcoming := some upcoming }

/-- What was collected for a batch, the latest record first. -/
structure Collected where
  bytes : UInt64 := 0
  latest : Records := []

/-- The collected records in the order in which they were read. -/
def Collected.raw (c : Collected) : Records := c.latest.reverse

/-- How collecting ended. -/
inductive Collection where
  | full (collected : Collected)
  | refused (error : ReadError)
  | panicked (message : String)

/-- The report of a record that is skipped. -/
def skipLine (sourceName reason : String) : LogLine :=
  .failure "Skipping bad record" [("source", sourceName), ("reason", reason)]

/-- The report of an error that only ends the batch. -/
def partialLine (sourceName : String) (error : ReadError) (count : Nat) : LogLine :=
  .failure "Read failed, returning partial batch"
    [("source", sourceName), ("error", error.message), ("read", toString count)]

/-- The end of a batch by an error that does not let reading go on. -/
def interrupt (sourceName : String) (collected : Collected) (error : ReadError) :
    Collection × List LogLine :=
  if collected.latest.isEmpty && collected.bytes == 0 then (.refused error, [])
  else
    (.full collected,
      if error.isEof then [] else [partialLine sourceName error collected.latest.length])

/-- Collect up to `wanted` more records. The result is the collection, what is logged, and what the
record reader is going to answer after that. -/
def collect (sourceName : String) (collected : Collected) :
    (wanted : Nat) → List RecordOutcome → Collection × List LogLine × List RecordOutcome
  | 0, upcoming => (.full collected, [], upcoming)
  | _ + 1, [] =>
      let (collection, logs) := interrupt sourceName collected .eof
      (collection, logs, [])
  | wanted + 1, .record bytes record :: later =>
      collect sourceName ⟨collected.bytes + .ofNat bytes, record :: collected.latest⟩ wanted later
  | wanted + 1, .error error :: later =>
      match error with
      | .skip bytes reason =>
          let (collection, logs, later) :=
            collect sourceName { collected with bytes := collected.bytes + .ofNat bytes }
              (wanted + 1) later
          (collection, skipLine sourceName reason :: logs, later)
      | error =>
          let (collection, logs) := interrupt sourceName collected error
          (collection, logs, later)
  | _ + 1, .panicked message :: later => (.panicked message, [], later)

/-- The largest batch for which a list of records can be allocated. -/
def largestBatch : Nat := 9223372036854775807 / 24

/-- The outcome of collected records, converted. -/
def outcome (convert : Convertor) : Collection → BatchOutcome
  | .full collected =>
      match convert.convertAll collected.raw with
      | .records records => .batch collected.bytes.toNat records
      | .failed error => .error (.convert error)
      | .panicked message => .panicked message
  | .refused error => .error error
  | .panicked message => .panicked message

/-- Read the next batch. A panic is reported as an aborted read, and from then on every read is
refused. -/
def readBatch (r : StreamReader) : BatchOutcome × List LogLine × StreamReader :=
  match r.upcoming with
  | none => (.error (.aborted "record reader lost by a previous read"), [], r)
  | some upcoming =>
      if largestBatch < r.batch then
        (.error (.aborted (panicMessage "capacity overflow")), [], { r with upcoming := none })
      else
        let (collection, logs, later) := collect r.sourceName {} r.batch upcoming
        match outcome r.convert collection with
        | .panicked message =>
            (.error (.aborted (panicMessage message)), logs, { r with upcoming := none })
        | outcome => (outcome, logs, { r with upcoming := some later })

/-- Read this many batches, with what is logged meanwhile and the reader after them. -/
def readMany (r : StreamReader) : Nat → List BatchOutcome × List LogLine × StreamReader
  | 0 => ([], [], r)
  | n + 1 =>
      let (outcome, logs, r) := r.readBatch
      let (outcomes, later, r) := r.readMany n
      (outcome :: outcomes, logs ++ later, r)

end StreamReader

end BulkLoad
