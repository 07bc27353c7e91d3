import BulkLoad.Csv.Machine
import BulkLoad.Error
import BulkLoad.Source.Bytes
import BulkLoad.Text.Utf8

/-!
# Reading delimited text from a source

`Reader.next` takes pieces of bytes from a source until the machine has completed a record, and
keeps account of the bytes consumed, the lines and the records. `RecordReader.read` gives the record
as text together with the bytes consumed since the last answer. A record is skipped, with a reason,
if it is not UTF-8 or does not have as many fields as the first one that is.
-/

namespace BulkLoad.Csv

/-- Bytes consumed, the current line, and complete records, each since the beginning. -/
structure Position where
  byte : Nat := 0
  line : Nat := 1
  record : Nat := 0
deriving DecidableEq

/-- A reader of records. `header` is set until the header has been dropped, `begun` once a first
piece has been taken, and `ended` when there will be no more records. -/
structure Reader where
  dialect : Dialect
  header : Bool
  buffer : List UInt8 := []
  mode : Mode := .recordStart
  begun : Bool := false
  ended : Bool := false
  position : Position := {}
deriving DecidableEq

/-- What a reader finds: a record, the end, or a failure of the source. -/
inductive Found where
  | record (fields : RawRecord)
  | eof
  | fault (message : String)
deriving DecidableEq

/-- The mark that may stand before UTF-8 text. -/
def byteOrderMark : List UInt8 := [0xEF, 0xBB, 0xBF]

/-- The number of line feeds. -/
def lineFeeds (bytes : List UInt8) : Nat := bytes.count 10

/-- The position after these bytes. -/
def Position.advance (p : Position) (bytes : List UInt8) : Position :=
  { p with byte := p.byte + bytes.length, line := p.line + lineFeeds bytes }

/-- The first bytes of a longer list, of which the others are left. -/
def takenBefore (bytes rest : List UInt8) : List UInt8 := bytes.take (bytes.length - rest.length)

namespace Reader

/-- A reader for a text format. -/
def of (config : CsvConfig) : Reader :=
  { dialect := Dialect.of config, header := config.withHeader }

/-- The record that the end of the input completes, if any. -/
def atEnd (r : Reader) (d : Draft) : Found × Reader :=
  match d.finish with
  | none => (.eof, { r with ended := true })
  | some record =>
      (.record record,
        { r with
          mode := .recordStart
          position := { r.position with record := r.position.record + 1 } })

/-- Go on with a draft in the bytes that have been taken from the source and then in further pieces.
The mark before the text is dropped from the first piece if it lies in it completely; a first piece
that holds nothing else counts as the end. -/
def pull (r : Reader) (d : Draft) (input : List Serving) : Found × Reader × List Serving :=
  match feed r.dialect d r.buffer with
  | .whole record next rest =>
      let position := r.position.advance (takenBefore r.buffer rest)
      (.record record,
        { r with
          buffer := rest
          mode := next
          position := { position with record := position.record + 1 } },
        input)
  | .partly d =>
      let position := r.position.advance r.buffer
      match input with
      | [] =>
          let (found, r) := { r with buffer := [], begun := true, position }.atEnd d
          (found, r, [])
      | .fault message :: input =>
          (.fault message, { r with buffer := [], position, ended := true }, input)
      | .bytes piece :: input =>
          let marked := !r.begun && byteOrderMark.isPrefixOf piece
          let position :=
            if marked then { position with byte := position.byte + byteOrderMark.length }
            else position
          let piece := if marked then piece.drop byteOrderMark.length else piece
          if piece.isEmpty then
            let (found, r) := { r with buffer := [], begun := true, position }.atEnd d
            (found, r, input)
          else pull { r with buffer := piece, begun := true, position } d input
termination_by structural input

/-- The next record, with a header counted as one. After the end there is none. -/
def next (r : Reader) (input : List Serving) : Found × Reader × List Serving :=
  if r.ended then (.eof, r, input) else r.pull ⟨r.mode, [], []⟩ input

/-- The next record after the header, which is dropped as it stands. -/
def nextData (r : Reader) (input : List Serving) : Found × Reader × List Serving :=
  if r.header then
    match r.next input with
    | (.fault message, r, input) => (.fault message, r, input)
    | (_, r, input) => { r with header := false }.next input
  else r.next input

end Reader

/-- The fields as texts, or the number of the first field that is not UTF-8 and the length of its
well-formed beginning. -/
def decodeFields (index : Nat) : RawRecord → Except (Nat × Nat) (List String)
  | [] => .ok []
  | field :: rest =>
      match Text.Utf8.decode field with
      | .error valid => .error (index, valid)
      | .ok text => (decodeFields (index + 1) rest).map (String.ofList text :: ·)

/-- The reason for skipping a record that is not UTF-8. The position is that before the record. -/
def encodingReason (p : Position) (field valid : Nat) : String :=
  String.join [
    "CSV parse error: record ", toString p.record, " (line ", toString p.line, ", field: ",
    toString field, ", byte: ", toString p.byte, "): invalid utf-8: invalid UTF-8 in field ",
    toString field, " near byte index ", toString valid]

/-- The reason for skipping a record with another number of fields. The line is that after the
record. -/
def widthReason (p : Position) (expected found : Nat) : String :=
  String.join [
    "line ", toString p.line, ": expected ", toString expected, " fields, found ", toString found]

/-- A reader of records as texts: the number of fields that records must have, and the bytes that
have been accounted for. -/
structure RecordReader where
  sourceName : String
  csv : Reader
  expected : Option Nat := none
  charged : Nat := 0
  input : List Serving := []
deriving DecidableEq

/-- The answer to one request for a record: the bytes consumed since the last answer and the record,
or why there is none. -/
abbrev ReadResult := Except ReadError (Nat × List String)

/-- The bytes that an answer accounts for. -/
def consumed : ReadResult → Nat
  | .ok (bytes, _) => bytes
  | .error (.skip bytes _) => bytes
  | .error _ => 0

/-- The next record. -/
def RecordReader.read (r : RecordReader) : ReadResult × RecordReader :=
  let start := r.csv.position
  match r.csv.nextData r.input with
  | (.eof, csv, input) => (.error .eof, { r with csv, input })
  | (.fault message, csv, input) =>
      (.error (.failed r.sourceName message),
        { r with csv, input, charged := csv.position.byte })
  | (.record fields, csv, input) =>
      let bytes := csv.position.byte - r.charged
      let charged := csv.position.byte
      match decodeFields 0 fields with
      | .error (field, valid) =>
          (.error (.skip bytes (encodingReason start field valid)),
            { r with csv, input, charged })
      | .ok texts =>
          let expected := r.expected.getD texts.length
          let r := { r with csv, input, charged, expected := some expected }
          if texts.length == expected then (.ok (bytes, texts), r)
          else (.error (.skip bytes (widthReason csv.position expected texts.length)), r)

/-- The reader of a source with a text format, from the first piece that the source serves. -/
def RecordReader.of (sourceName : String) (config : CsvConfig) (input : List Serving) :
    RecordReader :=
  { sourceName, csv := Reader.of config, input }

/-- What a source serves that cannot be read as bytes. -/
def unreadable (sourceName : String) : List Serving :=
  [.fault ("source '" ++ sourceName ++ "' is not byte readable")]

end BulkLoad.Csv
