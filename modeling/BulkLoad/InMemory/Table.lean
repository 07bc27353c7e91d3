import BulkLoad.Decimal.Fixed
import BulkLoad.Reader.Query
import BulkLoad.Text.Search

/-!
# A table in memory

A table of players that answers page statements. It finds the key after which the page begins and
the number of rows in the text of the statement, and gives the rows in the order in which it holds
them.
-/

namespace BulkLoad.InMemory

/-- A table with the number of statements it has answered. -/
structure Table where
  rows : List Row
  queries : Nat := 0

namespace Table

/-- The name of the table as a source. -/
def sourceName : String := "sql player"

/-- The description of the table. -/
def table : SqlTable := { name := "player", fields := ["id", "name", "age"] }

/-- The description of the table as a source. -/
def config : SourceConfig := { location := "mysql://localhost/nba", sql := some table }

/-- The row of the player with this number. The age of every seventh player is not known. -/
def player (i : Nat) : Row :=
  [some ("player" ++ Decimal.padLeft 4 (toString i)), some ("Name " ++ toString i),
    if i % 7 == 0 then none else some (toString (20 + i % 20))]

/-- The table of the first `n` players. -/
def players (n : Nat) : Table := ⟨(List.range n).map player, 0⟩

/-- The key after which the page begins: the literal after the first `>`. Without a closing quote it
extends to the next such literal or to the end. -/
def mark? (statement : List Char) : Option String :=
  let sign := "> '".toList
  match Text.cut? sign statement with
  | none => none
  | some (_, rest) =>
      let piece :=
        match Text.cut? sign rest with
        | none => rest
        | some (before, _) => before
      some (String.ofList (piece.takeWhile (· != '\'')))

/-- A text without white space at its ends. -/
def trim (text : List Char) : List Char :=
  ((text.dropWhile Text.isSpace).reverse.dropWhile Text.isSpace).reverse

/-- The number of rows in a page: the number after the last `LIMIT`. -/
def limit? (statement : List Char) : Option Nat :=
  Text.natural? (trim (Text.afterLast "LIMIT ".toList statement))

/-- Whether a row comes after the key. -/
def follows (mark : Option String) (row : Row) : Bool :=
  match mark, row.head? with
  | some mark, some (some key) => mark < key
  | _, _ => true

/-- The rows that a statement asks for. -/
def select (rows : List Row) (statement : String) : Page :=
  match limit? statement.toList with
  | none => .error (.query sourceName ("no limit in '" ++ statement ++ "'"))
  | some limit => .ok ((rows.filter (follows (mark? statement.toList))).take limit)

/-- Answer a statement. -/
def query (t : Table) (statement : String) : Page × Table :=
  (select t.rows statement, { t with queries := t.queries + 1 })

end Table

end BulkLoad.InMemory
