import BulkLoad.Csv.Reader
import BulkLoad.Reader.Outcome

/-!
# Everything a record reader answers

What a reader of delimited text answers does not depend on when it is asked. `outcomes` lists its
answers up to the end of the source; from then on it keeps answering that the source is exhausted.
-/

namespace BulkLoad.Csv

/-- The answer in the form that is common to all readers of records. -/
def outcomeOf : ReadResult → RecordOutcome
  | .ok (bytes, record) => .record bytes record
  | .error error => .error error

/-- The bytes and failures that a source has left to serve. -/
def load : List Serving → Nat
  | [] => 0
  | .bytes piece :: input => piece.length + 1 + load input
  | .fault _ :: input => 1 + load input

namespace RecordReader

/-- The answers to this many requests, and the reader after them. -/
def readMany (r : RecordReader) : Nat → List ReadResult × RecordReader
  | 0 => ([], r)
  | n + 1 =>
      let (result, r) := r.read
      let (results, r) := r.readMany n
      (result :: results, r)

/-- The answers to at most `limit` requests, up to the one with which the end of the source has been
reported `ends` times. -/
def readToEnd (r : RecordReader) (ends : Nat) : (limit : Nat) → List ReadResult
  | 0 => []
  | limit + 1 =>
      match ends with
      | 0 => []
      | ends + 1 =>
          let (result, r) := r.read
          let ends := if result matches .error .eof then ends else ends + 1
          result :: r.readToEnd ends limit

/-- All answers of the reader with the first report of the end. Each of them uses up bytes or a
failure of the source, or is the last record or the end. -/
def outcomes (r : RecordReader) : List RecordOutcome :=
  (r.readToEnd 1 (r.csv.buffer.length + load r.input + 3)).map outcomeOf

end RecordReader

end BulkLoad.Csv
