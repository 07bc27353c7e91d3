import BulkLoad.Proofs.Json.Records
import BulkLoad.Source.Config

/-!
# Descriptions of sources and their written form

Every description of a source is read back from its text as it is (`SourceConfig.of_written_text`):
its text format and its table are decoded from their written forms, and a section that is left out
is decoded as absent.
-/

namespace BulkLoad

/-! ## Text formats -/

namespace CsvConfig

/-- The written form of an optional character. -/
def writtenMark : Option Char → Json := Json.ofOption fun c => Json.ofString c.toString

/-- The members of a written text format. -/
def members (c : CsvConfig) : List (String × Json) := [
  ("delimiter", writtenMark c.delimiter),
  ("comment", writtenMark c.comment),
  ("with_header", .bool c.withHeader)]

/-- The written form of a text format is the object of its members. -/
theorem to_json_eq (c : CsvConfig) : c.toJson = Json.ofMembers c.members := rfl

/-- An optional character is decoded from its written form. -/
theorem decode_mark (c : Option Char) : decodeMark (writtenMark c) = .ok c :=
  Json.optional_of_option nofun Json.character_of_char c

/-- The members of a written text format fit its fields. -/
theorem fits (c : CsvConfig) : layout.Fits c.members where
  names := by simp [members]
  accepted := by
    have hheader : Json.boolean (.bool c.withHeader) = .ok c.withHeader := rfl
    simp only [members, List.forall_mem_cons]
    exact ⟨⟨_, rfl, Json.Field.accepts_of_ok (decode_mark _)⟩,
      ⟨_, rfl, Json.Field.accepts_of_ok (decode_mark _)⟩,
      ⟨_, rfl, Json.Field.accepts_of_ok hheader⟩, nofun⟩
  complete := by simp [layout, Json.Field.of]

/-- A text format is decoded from its written form. -/
theorem decode_to_json (origin : Json.Origin) (c : CsvConfig) :
    CsvConfig.decode origin c.toJson = .ok c := by
  have hmembers : layout.members origin c.toJson = .ok c.members := by
    rw [to_json_eq]
    exact Json.Layout.members_of_fits c.fits origin
  have hdelimiter : Json.member c.members "delimiter" decodeMark none = .ok c.delimiter :=
    decode_mark c.delimiter
  have hcomment : Json.member c.members "comment" decodeMark none = .ok c.comment :=
    decode_mark c.comment
  have hheader : Json.member c.members "with_header" Json.boolean false = .ok c.withHeader := rfl
  rw [decode, Json.bind_of_ok hmembers, Json.bind_of_ok hdelimiter, Json.bind_of_ok hcomment,
    Json.bind_of_ok hheader]
  rfl

/-- The written form of a text format is complete. -/
theorem complete_to_json (c : CsvConfig) : c.toJson.Complete := by
  have hmark (c : Option Char) : (writtenMark c).Complete := .of_option fun _ _ => .of_string _
  rw [to_json_eq]
  refine .of_members ?_
  simp only [members, List.forall_mem_cons]
  exact ⟨hmark _, hmark _, .bool _, nofun⟩

end CsvConfig

/-! ## Tables -/

/-- An optional text is decoded from its written form. -/
theorem decode_optional_text (s : Option String) :
    decodeOptionalText (Json.ofOption Json.ofString s) = .ok s :=
  Json.optional_of_option nofun Json.text_of_string s

/-- The written form of an optional text is complete. -/
theorem complete_optional_text (s : Option String) :
    (Json.ofOption Json.ofString s).Complete := .of_option fun _ _ => .of_string _

namespace SqlId

/-- The members of a written key column. -/
def members (id : SqlId) : List (String × Json) := [
  ("name", Json.ofString id.name),
  ("index", Json.ofNat id.index.toNat),
  ("alias", Json.ofOption Json.ofString id.expression)]

/-- The written form of a key column is the object of its members. -/
theorem to_json_eq (id : SqlId) : id.toJson = Json.ofMembers id.members := rfl

/-- The members of a written key column fit its fields. -/
theorem fits (id : SqlId) : layout.Fits id.members where
  names := by simp [members]
  accepted := by
    simp only [members, List.forall_mem_cons]
    exact ⟨⟨_, rfl, Json.Field.accepts_of_ok (Json.text_of_string _)⟩,
      ⟨_, rfl, Json.Field.accepts_of_ok (Json.natural_of_count _ _)⟩,
      ⟨_, rfl, Json.Field.accepts_of_ok (decode_optional_text _)⟩, nofun⟩
  complete := by simp [layout, Json.Field.of]

/-- A key column is decoded from its written form. -/
theorem decode_to_json (origin : Json.Origin) (id : SqlId) :
    SqlId.decode origin id.toJson = .ok id := by
  have hmembers : layout.members origin id.toJson = .ok id.members := by
    rw [to_json_eq]
    exact Json.Layout.members_of_fits id.fits origin
  have hname : Json.member id.members "name" Json.text "id" = .ok id.name :=
    Json.text_of_string id.name
  have hindex : Json.member id.members "index" (Json.natural "usize") 0 = .ok id.index :=
    Json.natural_of_count "usize" id.index
  have halias : Json.member id.members "alias" decodeOptionalText none = .ok id.expression :=
    decode_optional_text id.expression
  rw [decode, Json.bind_of_ok hmembers, Json.bind_of_ok hname, Json.bind_of_ok hindex,
    Json.bind_of_ok halias]
  rfl

/-- The written form of a key column is complete. -/
theorem complete_to_json (id : SqlId) : id.toJson.Complete := by
  rw [to_json_eq]
  refine .of_members ?_
  simp only [members, List.forall_mem_cons]
  exact ⟨.of_string _, .of_nat _, complete_optional_text _, nofun⟩

end SqlId

namespace SqlTable

/-- The members of a written table. -/
def members (t : SqlTable) : List (String × Json) := [
  ("name", Json.ofString t.name),
  ("id", t.id.toJson),
  ("fields", Json.ofList (t.fields.map Json.ofString)),
  ("query", Json.ofOption Json.ofString t.query),
  ("count", Json.ofOption Json.ofString t.count),
  ("filter", Json.ofOption Json.ofString t.filter)]

/-- The written form of a table is the object of its members. -/
theorem to_json_eq (t : SqlTable) : t.toJson = Json.ofMembers t.members := rfl

/-- The members of a written table fit its fields. -/
theorem fits (origin : Json.Origin) (t : SqlTable) : (layout origin).Fits t.members where
  names := by simp [members]
  accepted := by
    simp only [members, List.forall_mem_cons]
    exact ⟨⟨_, rfl, Json.Field.accepts_of_ok (Json.text_of_string _)⟩,
      ⟨_, rfl, Json.Field.accepts_of_ok (t.id.decode_to_json origin)⟩,
      ⟨_, rfl, Json.Field.accepts_of_ok (Json.texts_of_strings _)⟩,
      ⟨_, rfl, Json.Field.accepts_of_ok (decode_optional_text _)⟩,
      ⟨_, rfl, Json.Field.accepts_of_ok (decode_optional_text _)⟩,
      ⟨_, rfl, Json.Field.accepts_of_ok (decode_optional_text _)⟩, nofun⟩
  complete := by simp [layout, Json.Field.of, members]

/-- A table is decoded from its written form. -/
theorem decode_to_json (origin : Json.Origin) (t : SqlTable) :
    SqlTable.decode origin t.toJson = .ok t := by
  have hmembers : (layout origin).members origin t.toJson = .ok t.members := by
    rw [to_json_eq]
    exact Json.Layout.members_of_fits (t.fits origin) origin
  have hname : Json.member t.members "name" Json.text "" = .ok t.name := Json.text_of_string t.name
  have hid : Json.member t.members "id" (SqlId.decode origin) {} = .ok t.id :=
    t.id.decode_to_json origin
  have hfields : Json.member t.members "fields" (Json.list Json.text) [] = .ok t.fields :=
    Json.texts_of_strings t.fields
  have hquery : Json.member t.members "query" decodeOptionalText none = .ok t.query :=
    decode_optional_text t.query
  have hcount : Json.member t.members "count" decodeOptionalText none = .ok t.count :=
    decode_optional_text t.count
  have hfilter : Json.member t.members "filter" decodeOptionalText none = .ok t.filter :=
    decode_optional_text t.filter
  rw [decode, Json.bind_of_ok hmembers, Json.bind_of_ok hname, Json.bind_of_ok hid,
    Json.bind_of_ok hfields, Json.bind_of_ok hquery, Json.bind_of_ok hcount,
    Json.bind_of_ok hfilter]
  rfl

/-- The written form of a table is complete. -/
theorem complete_to_json (t : SqlTable) : t.toJson.Complete := by
  rw [to_json_eq]
  refine .of_members ?_
  simp only [members, List.forall_mem_cons]
  exact ⟨.of_string _, t.id.complete_to_json, .of_list fun _ _ => .of_string _,
    complete_optional_text _, complete_optional_text _, complete_optional_text _, nofun⟩

end SqlTable

/-! ## Sources -/

namespace SourceConfig

/-- The members of a written source. -/
def members (c : SourceConfig) : List (String × Json) :=
  ("location", Json.ofString c.location) ::
    sectionMember "csv" CsvConfig.toJson c.csv ++ sectionMember "sql" SqlTable.toJson c.sql

/-- The written form of a source is the object of its members. -/
theorem to_json_eq (c : SourceConfig) : c.toJson = Json.ofMembers c.members := rfl

/-- The member of a section has its name and holds the section. -/
theorem of_section_member {α : Type} {name : String} {toJson : α → Json} {x : Option α}
    {m : String × Json} (h : m ∈ sectionMember name toJson x) : ∃ y, m = (name, toJson y) := by
  cases x with
  | none => cases h
  | some y => exact ⟨y, List.mem_singleton.mp h⟩

/-- A written text format is decoded where it may be left out. -/
theorem decode_csv (csv : CsvConfig) :
    Json.optional (CsvConfig.decode .document) csv.toJson = .ok (some csv) :=
  Json.optional_of_option nofun (CsvConfig.decode_to_json .document) (some csv)

/-- A written table is decoded where it may be left out. -/
theorem decode_sql (sql : SqlTable) :
    Json.optional (SqlTable.decode .document) sql.toJson = .ok (some sql) :=
  Json.optional_of_option nofun (SqlTable.decode_to_json .document) (some sql)

/-- The members of a written source fit its fields. -/
theorem fits (c : SourceConfig) : layout.Fits c.members where
  names := by
    obtain ⟨location, csv, sql⟩ := c
    cases csv <;> cases sql <;> simp [members, sectionMember]
  accepted := by
    intro m hm
    rcases List.mem_append.mp hm with hm | hm
    · rcases List.mem_cons.mp hm with rfl | hm
      · exact ⟨_, rfl, Json.Field.accepts_of_ok (Json.text_of_string _)⟩
      · obtain ⟨csv, rfl⟩ := of_section_member hm
        exact ⟨_, rfl, Json.Field.accepts_of_ok (decode_csv csv)⟩
    · obtain ⟨sql, rfl⟩ := of_section_member hm
      exact ⟨_, rfl, Json.Field.accepts_of_ok (decode_sql sql)⟩
  complete := by simp [layout, Json.Field.of, members]

/-- A source is decoded from its written form. -/
theorem decode_to_json (c : SourceConfig) : decode c.toJson = .ok c := by
  have hmembers : layout.members .document c.toJson = .ok c.members := by
    rw [to_json_eq]
    exact Json.Layout.members_of_fits c.fits .document
  have hlocation : Json.member c.members "location" Json.text "" = .ok c.location :=
    Json.text_of_string c.location
  have hcsv : Json.member c.members "csv" (Json.optional (CsvConfig.decode .document)) none =
      .ok c.csv := by
    obtain ⟨location, csv, sql⟩ := c
    cases csv with
    | none => cases sql with
      | none | some => rfl
    | some csv => exact decode_csv csv
  have hsql : Json.member c.members "sql" (Json.optional (SqlTable.decode .document)) none =
      .ok c.sql := by
    obtain ⟨location, csv, sql⟩ := c
    cases sql with
    | none => cases csv with
      | none | some => rfl
    | some sql => cases csv with
      | none | some => exact decode_sql sql
  rw [decode, Json.bind_of_ok hmembers, Json.bind_of_ok hlocation, Json.bind_of_ok hcsv,
    Json.bind_of_ok hsql]
  rfl

/-- The written form of a source is complete. -/
theorem complete_to_json (c : SourceConfig) : c.toJson.Complete := by
  rw [to_json_eq]
  refine .of_members fun m hm => ?_
  rcases List.mem_append.mp hm with hm | hm
  · rcases List.mem_cons.mp hm with rfl | hm
    · exact .of_string _
    · obtain ⟨csv, rfl⟩ := of_section_member hm
      exact csv.complete_to_json
  · obtain ⟨sql, rfl⟩ := of_section_member hm
    exact sql.complete_to_json

/-- Every description of a source is read back from its text. -/
theorem of_written_text (c : SourceConfig) : ofText c.toJson.render = .ok c := by
  rw [ofText, Json.decode_text_render c.complete_to_json, decode_to_json]

end SourceConfig

end BulkLoad
