import BulkLoad.Convertor
import BulkLoad.Reader.Outcome
import BulkLoad.Settings
import BulkLoad.Source.Statement

/-!
# Batches from a table

A `QueryReader` pages through a table in the order of its key. Each page begins after the key of the
last row of the page before, the watermark. A page whose last row does not move the watermark is
refused, and an error of any kind leaves the watermark where it was.
-/

namespace BulkLoad

/-- A row of a table; a cell may be null. -/
abbrev Row := List (Option String)

/-- The answer of a source to a statement. -/
abbrev Page := Except SourceError (List Row)

/-- A reader of pages, with the key of the last row handed out so far. -/
structure QueryReader where
  sourceName : String
  table : SqlTable
  convert : Convertor
  batch : Nat
  watermark : Option String := none

namespace QueryReader

/-- A reader of pages of a given size; a size of zero stands for the default. -/
def of (sourceName : String) (table : SqlTable) (convert : Convertor) (batch : Nat) : QueryReader :=
  { sourceName, table, convert, batch := if batch == 0 then defaultBatch else batch }

/-- The raw record of a row: null cells are empty. -/
def rawRecord (row : Row) : Record := row.map (·.getD "")

/-- The statement that asks for the next page. -/
def statement (r : QueryReader) : String := r.table.pageStatement r.watermark r.batch

/-- Take the answer to the statement. -/
def receive (r : QueryReader) (page : Page) : BatchOutcome × QueryReader :=
  match page with
  | .error error => (.error (.source error), r)
  | .ok rows =>
      match rows.getLast? with
      | none => (.error .eof, r)
      | some last =>
          let key := r.table.id.index.toNat
          match (rawRecord last)[key]? with
          | none =>
              (.error (.failed r.sourceName ("row has no key column at index " ++ toString key)), r)
          | some mark =>
              if r.watermark == some mark then
                (.error (.failed r.sourceName
                  ("key '" ++ mark ++ "' does not advance past the previous page")), r)
              else
                match r.convert.convertAll (rows.map rawRecord) with
                | .records records =>
                    (.batch rows.length records, { r with watermark := some mark })
                | .failed error => (.error (.convert error), r)
                | .panicked message => (.panicked message, r)

/-- One batch that was read: the statement that was sent, the outcome, and the reader after it. -/
structure Exchange where
  statement : String
  outcome : BatchOutcome
  reader : QueryReader

/-- Read this many batches from a source that answers statements. -/
def readMany {σ : Type} (r : QueryReader) (answer : σ → String → Page × σ) (source : σ) :
    Nat → List Exchange × σ
  | 0 => ([], source)
  | n + 1 =>
      let (page, source) := answer source r.statement
      let (outcome, next) := r.receive page
      let (later, source) := next.readMany answer source n
      (⟨r.statement, outcome, next⟩ :: later, source)

end QueryReader

end BulkLoad
