import BulkLoad.Json.Decode

/-!
# What is known about a source

A source has a location and, depending on its kind, a description of its text format or of the
table that is read from it. These descriptions have a JSON form that reading gives back exactly.
-/

namespace BulkLoad

/-- How the text of a source is divided into records. -/
structure CsvConfig where
  delimiter : Option Char := none
  comment : Option Char := none
  withHeader : Bool := false
deriving DecidableEq

/-- The column by which a table is read page by page: its name, its position among the columns, and
the expression that stands for it in statements. -/
structure SqlId where
  name : String := "id"
  index : UInt64 := 0
  expression : Option String := none
deriving DecidableEq

/-- A table, or a query in its place, that is read page by page. -/
structure SqlTable where
  name : String := ""
  id : SqlId := {}
  fields : List String := []
  query : Option String := none
  count : Option String := none
  filter : Option String := none
deriving DecidableEq

/-- Where a source lies and how its content is shaped. -/
structure SourceConfig where
  location : String := ""
  csv : Option CsvConfig := none
  sql : Option SqlTable := none
deriving DecidableEq

namespace CsvConfig

/-- The JSON form of a text format. -/
def toJson (c : CsvConfig) : Json :=
  let optional (c : Option Char) : Json := Json.ofOption (fun c => Json.ofString c.toString) c
  Json.ofMembers [
    ("delimiter", optional c.delimiter),
    ("comment", optional c.comment),
    ("with_header", .bool c.withHeader)]

/-- Decode an optional character. -/
def decodeMark : Json.Decoder (Option Char) := Json.optional Json.character

/-- The fields of a text format. -/
def layout : Json.Layout where
  title := "struct CsvConfig"
  fields := [
    Json.Field.of "delimiter" false decodeMark,
    Json.Field.of "comment" false decodeMark,
    Json.Field.of "with_header" false Json.boolean]

/-- Decode a text format. -/
def decode (origin : Json.Origin) : Json.Decoder CsvConfig := fun v => do
  let known ← layout.members origin v
  return {
    delimiter := ← Json.member known "delimiter" decodeMark none
    comment := ← Json.member known "comment" decodeMark none
    withHeader := ← Json.member known "with_header" Json.boolean false }

end CsvConfig

/-- Decode an optional text. -/
def decodeOptionalText : Json.Decoder (Option String) := Json.optional Json.text

namespace SqlId

/-- The JSON form of a key column. -/
def toJson (id : SqlId) : Json :=
  Json.ofMembers [
    ("name", Json.ofString id.name),
    ("index", Json.ofNat id.index.toNat),
    ("alias", Json.ofOption Json.ofString id.expression)]

/-- The fields of a key column. -/
def layout : Json.Layout where
  title := "struct SqlId"
  fields := [
    Json.Field.of "name" false Json.text,
    Json.Field.of "index" false (Json.natural "usize"),
    Json.Field.of "alias" false decodeOptionalText]

/-- Decode a key column. -/
def decode (origin : Json.Origin) : Json.Decoder SqlId := fun v => do
  let known ← layout.members origin v
  return {
    name := ← Json.member known "name" Json.text "id"
    index := ← Json.member known "index" (Json.natural "usize") 0
    expression := ← Json.member known "alias" decodeOptionalText none }

end SqlId

namespace SqlTable

/-- The JSON form of a table. -/
def toJson (t : SqlTable) : Json :=
  Json.ofMembers [
    ("name", Json.ofString t.name),
    ("id", t.id.toJson),
    ("fields", Json.ofList (t.fields.map Json.ofString)),
    ("query", Json.ofOption Json.ofString t.query),
    ("count", Json.ofOption Json.ofString t.count),
    ("filter", Json.ofOption Json.ofString t.filter)]

/-- The fields of a table. -/
def layout (origin : Json.Origin) : Json.Layout where
  title := "struct SqlTable"
  fields := [
    Json.Field.of "name" true Json.text,
    Json.Field.of "id" false (SqlId.decode origin),
    Json.Field.of "fields" false (Json.list Json.text),
    Json.Field.of "query" false decodeOptionalText,
    Json.Field.of "count" false decodeOptionalText,
    Json.Field.of "filter" false decodeOptionalText]

/-- Decode a table. -/
def decode (origin : Json.Origin) : Json.Decoder SqlTable := fun v => do
  let known ← (layout origin).members origin v
  return {
    name := ← Json.member known "name" Json.text ""
    id := ← Json.member known "id" (SqlId.decode origin) {}
    fields := ← Json.member known "fields" (Json.list Json.text) []
    query := ← Json.member known "query" decodeOptionalText none
    count := ← Json.member known "count" decodeOptionalText none
    filter := ← Json.member known "filter" decodeOptionalText none }

end SqlTable

namespace SourceConfig

/-- The member of an optional section, left out when the section is absent. -/
def sectionMember {α : Type} (name : String) (toJson : α → Json) :
    Option α → List (String × Json)
  | none => []
  | some x => [(name, toJson x)]

/-- The JSON form of a source. -/
def toJson (c : SourceConfig) : Json :=
  Json.ofMembers
    (("location", Json.ofString c.location) ::
      sectionMember "csv" CsvConfig.toJson c.csv ++ sectionMember "sql" SqlTable.toJson c.sql)

/-- The fields of a source. -/
def layout : Json.Layout where
  title := "struct SourceConfig"
  fields := [
    Json.Field.of "location" true Json.text,
    Json.Field.of "csv" false (Json.optional (CsvConfig.decode .document)),
    Json.Field.of "sql" false (Json.optional (SqlTable.decode .document))]

/-- Decode a source. -/
def decode : Json.Decoder SourceConfig := fun v => do
  let known ← layout.members .document v
  return {
    location := ← Json.member known "location" Json.text ""
    csv := ← Json.member known "csv" (Json.optional (CsvConfig.decode .document)) none
    sql := ← Json.member known "sql" (Json.optional (SqlTable.decode .document)) none }

/-- Read the description of a source from its text. -/
def ofText (raw : String) : Except Json.Refusal SourceConfig := Json.decodeText decode raw

end SourceConfig

end BulkLoad
