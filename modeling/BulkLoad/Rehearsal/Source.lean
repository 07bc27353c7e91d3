import BulkLoad.Csv.Outcomes
import BulkLoad.Reader.Query

/-!
# A scripted source

A source whose bytes, size, pages and failures are given beforehand.
-/

namespace BulkLoad.Rehearsal

/-- A scripted source. Opening it first waits for a gate if there is one. Without a size of its own
it is as long as its content. Each statement is answered by the next of its pages, and by an empty
page once they are used up. -/
structure Source where
  name : String := ""
  csv : Option CsvConfig := none
  table : SqlTable := {}
  content : ByteScript := {}
  openGate : Option String := none
  openError : Option SourceError := none
  closeError : Option SourceError := none
  sized : Option (Except SourceError Nat) := none
  pages : List Page := []

namespace Source

/-- The size of the source in its own units. -/
def size (s : Source) : Except SourceError Nat :=
  s.sized.getD (.ok s.content.content.length)

/-- A reader of the records in the content, in a text format or in that of the source. -/
def records (s : Source) (config : Option CsvConfig) : Csv.RecordReader :=
  .of s.name (config.getD (s.csv.getD {})) s.content.servings

/-- A reader of records for a source that cannot be read as bytes. -/
def unreadable (s : Source) (config : Option CsvConfig) : Csv.RecordReader :=
  .of s.name (config.getD (s.csv.getD {})) (Csv.unreadable s.name)

/-- Answer a statement. -/
def query (s : Source) : Page × Source :=
  match s.pages with
  | [] => (.ok [], s)
  | page :: pages => (page, { s with pages })

end Source

end BulkLoad.Rehearsal
