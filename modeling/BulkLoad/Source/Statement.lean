import BulkLoad.Error
import BulkLoad.Source.Config

/-!
# Statements that read a table

A table is counted by one statement and read page by page in the order of its key. Each page begins
after the key of the last row seen, the watermark, which stands in the statement as a literal with
its quotes doubled.
-/

namespace BulkLoad.SqlTable

/-- An optional text, where the empty text counts as absent. -/
def nonEmpty (s : Option String) : Option String := s.filter fun s => !s.isEmpty

/-- Check that the table has a name, that it has columns or a query, and that the key column stands
where rows are searched for it. -/
def validate (t : SqlTable) : Except SourceError Unit :=
  if t.name.isEmpty then .error (.invalidConfig "table name is required")
  else if t.query.isNone && t.fields.isEmpty then
    .error (.invalidConfig ("table '" ++ t.name ++ "' needs fields when no query is given"))
  else if !t.fields.isEmpty && t.fields[t.id.index.toNat]? != some t.id.name then
    .error (.invalidConfig
      ("field " ++ toString t.id.index.toNat ++ " of table '" ++ t.name ++
        "' must be the primary key '" ++ t.id.name ++ "'"))
  else .ok ()

/-- The expression that stands for the key in statements. -/
def primaryKey (t : SqlTable) : String :=
  match nonEmpty t.id.expression with
  | some expression => expression
  | none => "`" ++ t.id.name ++ "`"

/-- The condition on rows of the table. -/
def predicate (t : SqlTable) : String := (nonEmpty t.filter).getD "1 = 1"

/-- The query in place of the table with the filter added to its last condition. -/
def customQuery (t : SqlTable) : Option String :=
  (nonEmpty t.query).map fun query =>
    match nonEmpty t.filter with
    | some filter => query ++ " AND " ++ filter
    | none => query

/-- The columns of the table, each between backquotes. -/
def columns (t : SqlTable) : String := "`" ++ "`,`".intercalate t.fields ++ "`"

/-- The statement that counts the rows. -/
def countStatement (t : SqlTable) : String :=
  match nonEmpty t.count with
  | some count => count
  | none =>
      match t.customQuery with
      | some query => "SELECT COUNT(1) AS total FROM (" ++ query ++ ") AS t"
      | none =>
          "SELECT COUNT(1) AS total FROM `" ++ t.name ++ "` WHERE " ++ t.predicate

/-- The statement that reads all rows. -/
def baseStatement (t : SqlTable) : String :=
  match t.customQuery with
  | some query => query
  | none => "SELECT " ++ t.columns ++ " FROM `" ++ t.name ++ "` WHERE " ++ t.predicate

/-- The content of a literal: every quote is doubled. -/
def escapeQuotes (s : String) : String :=
  String.ofList (s.toList.flatMap fun c => if c == '\'' then ['\'', '\''] else [c])

/-- The condition that leaves out rows up to the watermark. An empty watermark leaves out none. -/
def watermarkCondition (t : SqlTable) (watermark : Option String) : String :=
  match nonEmpty watermark with
  | none => ""
  | some mark => " AND " ++ t.primaryKey ++ " > '" ++ escapeQuotes mark ++ "'"

/-- The statement for the next page after the watermark. -/
def pageStatement (t : SqlTable) (watermark : Option String) (limit : Nat) : String :=
  t.baseStatement ++ t.watermarkCondition watermark ++
    (" ORDER BY " ++ t.primaryKey ++ " ASC LIMIT " ++ toString limit)

end BulkLoad.SqlTable
