import BulkLoad.Proofs.Csv.Accounting
import BulkLoad.Proofs.Text.Utf8

/-!
# Reading undoes writing

Records are written with each field between double quotes and each quote in it doubled, the fields
of a record separated and every record ended by a line feed (`Writing.text`). Whatever the fields
contain, a record reader of the same format gives them back, and then reports the end of the source
(`records_of_text`).
-/

namespace BulkLoad.Csv

/-! ## Written records -/

namespace Writing

/-- The character between two fields: a comma unless the format says something else that is
ASCII. -/
def separator (config : CsvConfig) : Char :=
  match config.delimiter with
  | some c => if c.toNat < 128 then c else ','
  | none => ','

/-- The characters for which a character stands between quotes. -/
def escape (c : Char) : List Char := if c = '"' then ['"', '"'] else [c]

/-- A field between quotes. -/
def field (content : String) : List Char := '"' :: content.toList.flatMap escape ++ ['"']

/-- A record as a line. -/
def line (separator : Char) (record : List String) : List Char :=
  [separator].intercalate (record.map field) ++ ['\n']

/-- The bytes of a record as a line. -/
def lineBytes (config : CsvConfig) (record : List String) : List UInt8 :=
  Text.Utf8.encode (line (separator config) record)

/-- The bytes of the fields of a record. -/
def raw (record : List String) : RawRecord :=
  record.map fun content => Text.Utf8.encode content.toList

/-- The bytes of all records. -/
def text (config : CsvConfig) (records : List (List String)) : List UInt8 :=
  records.flatMap (lineBytes config)

end Writing

/-- A format in which everything can be written: what separates its fields is neither a quote nor a
line feed, and its comments do not begin with a quote. -/
structure Writable (config : CsvConfig) : Prop where
  unquoted : Writing.separator config ≠ '"'
  unended : Writing.separator config ≠ '\n'
  uncommented : config.comment ≠ some '"'

section

variable {config : CsvConfig} {dialect : Dialect} {fields : RawRecord} {content bytes : List UInt8}

/-! ## The machine -/

/-- A quote at the beginning of a record opens quotes. -/
theorem step_quote (hcomment : dialect.comment ≠ some quote) :
    Draft.step dialect ⟨.recordStart, fields, []⟩ quote = .go ⟨.inQuotes, fields, []⟩ := by
  have hno : (some quote == dialect.comment) = false := beq_false_of_ne (Ne.symm hcomment)
  show Draft.openRecord dialect ⟨.recordStart, fields, []⟩ quote = _
  rw [Draft.openRecord, hno]
  rfl

/-- After a field between quotes the delimiter begins the next one. -/
theorem step_delimiter (hquote : dialect.delimiter ≠ quote) :
    Draft.step dialect ⟨.afterQuote, fields, content⟩ dialect.delimiter =
      .go ⟨.fieldStart, content.reverse :: fields, []⟩ := by
  have hno : (dialect.delimiter == quote) = false := beq_false_of_ne hquote
  simp only [Draft.step, hno, Draft.plainByte, beq_self_eq_true]
  rfl

/-- After a field between quotes a line feed ends the record. -/
theorem step_line_feed (hfeed : dialect.delimiter ≠ 10) :
    Draft.step dialect ⟨.afterQuote, fields, content⟩ 10 =
      .done (fields.reverse ++ [content.reverse]) .recordStart := by
  have hno : ((10 : UInt8) == dialect.delimiter) = false := beq_false_of_ne (Ne.symm hfeed)
  show Draft.plainByte dialect ⟨.afterQuote, fields, content⟩ 10 = _
  rw [Draft.plainByte, hno]
  show Step.done (content.reverse :: fields).reverse .recordStart = _
  rw [List.reverse_cons]

/-- Bytes between quotes that are no quotes are content. -/
theorem feed_content (hplain : ∀ b ∈ bytes, b ≠ quote) :
    feed dialect ⟨.inQuotes, fields, content⟩ bytes =
      .partly ⟨.inQuotes, fields, bytes.reverse ++ content⟩ := by
  induction bytes generalizing content with
  | nil => rfl
  | cons b bytes ih =>
      have hb : (b == quote) = false := beq_false_of_ne (hplain b List.mem_cons_self)
      have hstep : Draft.step dialect ⟨.inQuotes, fields, content⟩ b =
          .go ⟨.inQuotes, fields, b :: content⟩ := by
        simp only [Draft.step, hb]
        rfl
      rw [feed, hstep]
      show feed dialect ⟨.inQuotes, fields, b :: content⟩ bytes = _
      rw [ih fun other hother => hplain other (List.mem_cons_of_mem _ hother), List.reverse_cons,
        List.append_assoc]
      rfl

/-- What stands for a character between quotes is the character. -/
theorem feed_escape (c : Char) :
    feed dialect ⟨.inQuotes, fields, content⟩ (Text.Utf8.encode (Writing.escape c)) =
      .partly ⟨.inQuotes, fields, (String.utf8EncodeChar c).reverse ++ content⟩ := by
  unfold Writing.escape
  split
  next hquote =>
    subst hquote
    rfl
  next hother =>
    rw [Text.Utf8.encode_singleton]
    apply feed_content
    rintro b hb rfl
    exact hother (Char.toNat_inj.mp (Text.Utf8.byte_of_char hb (by decide)))

/-- A text between quotes, with its quotes doubled, is the content of a field. -/
theorem feed_escaped (text : List Char) :
    feed dialect ⟨.inQuotes, fields, content⟩ (Text.Utf8.encode (text.flatMap Writing.escape)) =
      .partly ⟨.inQuotes, fields, (Text.Utf8.encode text).reverse ++ content⟩ := by
  induction text generalizing content with
  | nil => rfl
  | cons c text ih =>
      rw [List.flatMap_cons, Text.Utf8.encode_append, feed_append_of_partly (feed_escape c), ih,
        Text.Utf8.encode_cons, List.reverse_append, List.append_assoc]

/-- A written field opens quotes, in which its content stands, and closes them. -/
theorem feed_field {mode : Mode} (text : String)
    (hopen : Draft.step dialect ⟨mode, fields, []⟩ quote = .go ⟨.inQuotes, fields, []⟩) :
    feed dialect ⟨mode, fields, []⟩ (Text.Utf8.encode (Writing.field text)) =
      .partly ⟨.afterQuote, fields, (Text.Utf8.encode text.toList).reverse⟩ := by
  have hbytes : Text.Utf8.encode (Writing.field text) =
      quote :: (Text.Utf8.encode (text.toList.flatMap Writing.escape) ++ [quote]) := by
    rw [Writing.field, List.cons_append, Text.Utf8.encode_cons, Text.Utf8.encode_append]
    rfl
  rw [hbytes, feed, hopen]
  show feed dialect ⟨.inQuotes, fields, []⟩ _ = _
  rw [feed_append_of_partly (feed_escaped text.toList), List.append_nil]
  rfl

/-- The fields of a record that stand one after the other are read up to the line feed. -/
theorem feed_fields {separator : Char}
    (hseparator : Text.Utf8.encode [separator] = [dialect.delimiter])
    (hquote : dialect.delimiter ≠ quote) (hfeed : dialect.delimiter ≠ 10) {mode : Mode}
    {record : List String} (hrecord : record ≠ [])
    (hopen : Draft.step dialect ⟨mode, fields, []⟩ quote = .go ⟨.inQuotes, fields, []⟩) :
    feed dialect ⟨mode, fields, []⟩ (Text.Utf8.encode (Writing.line separator record)) =
      .whole (fields.reverse ++ Writing.raw record) .recordStart [] := by
  induction record generalizing mode fields with
  | nil => exact absurd rfl hrecord
  | cons first later ih =>
      cases later with
      | nil =>
          have hbytes : Text.Utf8.encode (Writing.line separator [first]) =
              Text.Utf8.encode (Writing.field first) ++ [10] := by
            rw [Writing.line, List.map_cons, List.map_nil, List.intercalate_singleton,
              Text.Utf8.encode_append]
            rfl
          rw [hbytes, feed_append_of_partly (feed_field first hopen), feed, step_line_feed hfeed,
            List.reverse_reverse]
          rfl
      | cons second later =>
          have hbytes : Text.Utf8.encode (Writing.line separator (first :: second :: later)) =
              Text.Utf8.encode (Writing.field first) ++ dialect.delimiter ::
                Text.Utf8.encode (Writing.line separator (second :: later)) := by
            rw [Writing.line, List.map_cons, List.map_cons, List.intercalate_cons_cons,
              List.append_assoc, List.append_assoc, Text.Utf8.encode_append,
              Text.Utf8.encode_append, hseparator]
            rfl
          rw [hbytes, feed_append_of_partly (feed_field first hopen), feed, step_delimiter hquote,
            List.reverse_reverse]
          show feed dialect ⟨.fieldStart, _, []⟩ _ = _
          rw [ih (List.cons_ne_nil _ _) rfl, List.reverse_cons, List.append_assoc]
          rfl

/-! ## The format -/

/-- What separates fields is one byte of the dialect. -/
theorem encode_separator (config : CsvConfig) :
    Text.Utf8.encode [Writing.separator config] = [(Dialect.of config).delimiter] := by
  rw [Text.Utf8.encode_singleton]
  unfold Writing.separator Dialect.of
  cases config.delimiter with
  | none => rfl
  | some c =>
      simp only [Option.bind_some, asciiByte]
      split
      next hascii => exact Text.Utf8.encode_ascii hascii
      next => rfl

/-- The byte that separates fields is that of the character between them. -/
theorem separator_of_delimiter {b : UInt8} (hascii : b.toNat < 128)
    (h : (Dialect.of config).delimiter = b) : (Writing.separator config).toNat = b.toNat := by
  refine Text.Utf8.byte_of_char ?_ hascii
  rw [← Text.Utf8.encode_singleton, encode_separator, h]
  exact List.mem_cons_self

/-- The dialect of a format in which everything can be written tells quotes from what separates
fields and from what begins comments. -/
theorem Writable.tells_apart (h : Writable config) :
    (Dialect.of config).delimiter ≠ quote ∧ (Dialect.of config).delimiter ≠ 10 ∧
      (Dialect.of config).comment ≠ some quote := by
  refine ⟨?_, ?_, ?_⟩
  · intro hdelimiter
    exact h.unquoted (Char.toNat_inj.mp (separator_of_delimiter (by decide) hdelimiter))
  · intro hdelimiter
    exact h.unended (Char.toNat_inj.mp (separator_of_delimiter (by decide) hdelimiter))
  · intro hcomment
    obtain ⟨c, hc, hbyte⟩ := Option.bind_eq_some_iff.mp hcomment
    unfold asciiByte at hbyte
    split at hbyte
    next hascii =>
      have hnumber := congrArg UInt8.toNat (Option.some.inj hbyte)
      have hsame : c.toNat % 256 = 34 := hnumber
      refine h.uncommented (hc.trans (congrArg some (Char.toNat_inj.mp ?_)))
      show c.toNat = 34
      omega
    next => cases hbyte

/-- The first record of a written text is the first that was written. -/
theorem first_record_of_line (h : Writable config) {record : List String} (hrecord : record ≠ [])
    (more : List UInt8) :
    firstRecord (Dialect.of config) .recordStart (Writing.lineBytes config record ++ more) =
      some (Writing.raw record, .recordStart, more) := by
  obtain ⟨hquote, hlineFeed, hcomment⟩ := h.tells_apart
  have hfeed : feed (Dialect.of config) ⟨.recordStart, [], []⟩ (Writing.lineBytes config record) =
      .whole (Writing.raw record) .recordStart [] :=
    feed_fields (encode_separator config) hquote hlineFeed hrecord (step_quote hcomment)
  rw [firstRecord, feed_append_of_whole hfeed]
  rfl

/-- A written text that is not empty begins with a quote. -/
theorem text_begins (config : CsvConfig) {records : List (List String)}
    (hrecords : ∀ record ∈ records, record ≠ []) :
    Writing.text config records = [] ∨ ∃ rest, Writing.text config records = quote :: rest := by
  have hline (separator : Char) {record : List String} (hrecord : record ≠ []) :
      ∃ rest, Writing.line separator record = '"' :: rest := by
    cases record with
    | nil => exact absurd rfl hrecord
    | cons first later =>
        cases later with
        | nil =>
            rw [Writing.line, List.map_cons, List.map_nil, List.intercalate_singleton]
            exact ⟨_, rfl⟩
        | cons second later =>
            rw [Writing.line, List.map_cons, List.map_cons, List.intercalate_cons_cons]
            exact ⟨_, rfl⟩
  cases records with
  | nil => exact .inl rfl
  | cons first later =>
      obtain ⟨rest, hrest⟩ := hline (Writing.separator config) (hrecords first List.mem_cons_self)
      refine .inr ?_
      rw [Writing.text, List.flatMap_cons, Writing.lineBytes, hrest, Text.Utf8.encode_cons]
      exact ⟨_, rfl⟩

/-- A written text does not begin with a mark, wherever its first piece ends. -/
theorem no_mark_of_text {records : List (List String)} {piece : List UInt8}
    {pieces : List (List UInt8)} (hpiece : piece ≠ [])
    (htext : (piece :: pieces).flatten = Writing.text config records)
    (hrecords : ∀ record ∈ records, record ≠ []) : byteOrderMark.isPrefixOf piece = false := by
  obtain ⟨b, rest, rfl⟩ := List.exists_cons_of_ne_nil hpiece
  rcases text_begins config hrecords with hnil | ⟨others, hquote⟩
  · rw [hnil] at htext
    cases htext
  · rw [hquote] at htext
    obtain rfl : b = quote := List.head_eq_of_cons_eq htext
    rfl

/-- The fields that were written are found to be UTF-8. -/
theorem decode_fields_raw (index : Nat) (record : List String) :
    decodeFields index (Writing.raw record) = .ok record := by
  induction record generalizing index with
  | nil => rfl
  | cons first later ih =>
      have hrest := ih (index + 1)
      rw [Writing.raw, List.map_cons, decodeFields, Text.Utf8.decode_encode]
      show (decodeFields (index + 1) (Writing.raw later)).map _ = _
      rw [hrest, String.ofList_toList]
      rfl

end

/-! ## The reader -/

namespace RecordReader

section

variable {r : RecordReader} {csv : Reader} {input : List Serving} {record : RawRecord}
  {texts : List String} {config : CsvConfig}

/-- A record that is UTF-8 and has as many fields as the first one is given. -/
theorem read_of_texts (h : r.csv.nextData r.input = (.record record, csv, input))
    (htexts : decodeFields 0 record = .ok texts)
    (hwidth : r.expected.getD texts.length = texts.length) :
    r.read = (.ok (csv.position.byte - r.charged, texts),
      { r with csv, input, charged := csv.position.byte, expected := some texts.length }) := by
  simp only [read, h, htexts, hwidth, beq_self_eq_true, if_true]

/-- A record reader that will find what is found in written records, of which all that came before
has been accounted for and which have the right number of fields. -/
structure FindsText (r : RecordReader) (config : CsvConfig) (n : Nat)
    (records : List (List String)) (csv : Reader) (pieces : List (List UInt8)) : Prop where
  finds : r.csv.nextData r.input = csv.nextData (pieces.map .bytes)
  stands : ∃ total, csv.StandsBefore (Writing.text config records) pieces total
  mode : csv.mode = .recordStart
  header : csv.header = false
  dialect : csv.dialect = Dialect.of config
  charged : r.charged = csv.position.byte
  expected : r.expected.getD n = n

variable {n : Nat} {records : List (List String)} {first : List String}
  {pieces : List (List UInt8)}

/-- Without further records the end is reported from now on. -/
theorem FindsText.read_end (h : r.FindsText config n [] csv pieces) (k : Nat) :
    (r.readMany k).1 = List.replicate k (.error .eof) := by
  obtain ⟨total, hstands⟩ := h.stands
  obtain ⟨after, hnext, hended⟩ := hstands.next_of_none (by rw [h.mode]; exact first_record_nil _)
  have hdata : r.csv.nextData r.input = (.eof, after, []) := by
    rw [h.finds, Reader.next_data_of_headless h.header, hnext]
  have hread : r.read = (.error .eof, { r with csv := after, input := [] }) := by
    simp only [read, hdata]
  cases k with
  | zero => rfl
  | succ k =>
      rw [readMany, hread]
      show Except.error ReadError.eof ::
        (({ r with csv := after, input := [] } : RecordReader).readMany k).1 = _
      rw [read_many_of_ended hended]
      rfl

/-- The next record is given with the bytes of its line, and the others are still to be found. -/
theorem FindsText.read_record (h : r.FindsText config n (first :: records) csv pieces)
    (hwritable : Writable config) (hfirst : first ≠ []) (hwidth : first.length = n) :
    r.read.1 = .ok ((Writing.lineBytes config first).length, first) ∧
      ∃ (after : Reader) (later : List (List UInt8)),
        r.read.2.FindsText config n records after later := by
  obtain ⟨total, hstands⟩ := h.stands
  have hrecord : firstRecord csv.dialect csv.mode (Writing.text config (first :: records)) =
      some (Writing.raw first, .recordStart, Writing.text config records) := by
    rw [h.dialect, h.mode]
    exact first_record_of_line hwritable hfirst _
  obtain ⟨after, later, hnext, hafter, hformat, hmode⟩ := hstands.next_of_some hrecord
  have hdata : r.csv.nextData r.input =
      (.record (Writing.raw first), after, later.map .bytes) := by
    rw [h.finds, Reader.next_data_of_headless h.header, hnext]
  have hread := read_of_texts hdata (decode_fields_raw 0 first) (by rw [hwidth]; exact h.expected)
  rw [hread]
  refine ⟨?_, after, later, rfl, ⟨total, hafter⟩, hmode, hformat.header.trans h.header,
    hformat.dialect.trans h.dialect, rfl, hwidth⟩
  -- The line is what stands between the positions before and after it.
  have hbefore := hstands.position
  have hposition := hafter.position
  have htext : (Writing.text config (first :: records)).length =
      (Writing.lineBytes config first).length + (Writing.text config records).length := by
    rw [Writing.text, List.flatMap_cons, List.length_append]
    rfl
  have hbytes : after.position.byte - r.charged = (Writing.lineBytes config first).length := by
    rw [h.charged]
    omega
  rw [hbytes]

/-- All records are given, and then the end is reported. -/
theorem FindsText.read_many (h : r.FindsText config n records csv pieces)
    (hwritable : Writable config)
    (hrecords : ∀ record ∈ records, record ≠ [] ∧ record.length = n) (k : Nat) :
    (r.readMany (records.length + k)).1 =
      (records.map fun record => .ok ((Writing.lineBytes config record).length, record)) ++
        List.replicate k (.error .eof) := by
  induction records generalizing r csv pieces with
  | nil =>
      rw [List.length_nil, Nat.zero_add]
      exact h.read_end k
  | cons first records ih =>
      obtain ⟨hfirst, hwidth⟩ := hrecords first List.mem_cons_self
      obtain ⟨hread, after, later, hlater⟩ := h.read_record hwritable hfirst hwidth
      rw [List.length_cons, Nat.add_right_comm, readMany]
      show r.read.1 :: (r.read.2.readMany (records.length + k)).1 = _
      rw [hread, ih hlater fun record hrecord => hrecords record (List.mem_cons_of_mem _ hrecord)]
      rfl

/-- A reader whose source serves written records finds them, wherever the source cuts them. -/
theorem finds_text_of_source (sourceName : String) (hheader : config.withHeader = false)
    (hpieces : ∀ piece ∈ pieces, piece ≠ []) (htext : pieces.flatten = Writing.text config records)
    (hrecords : ∀ record ∈ records, record ≠ []) :
    ∃ (csv : Reader) (later : List (List UInt8)),
      (RecordReader.of sourceName config (pieces.map .bytes)).FindsText config n records csv
        later := by
  have hnone : (Reader.of config).header = false := hheader
  cases pieces with
  | nil =>
      have hempty : Writing.text config records = [] := htext.symm
      have hbegun : ({ Reader.of config with begun := true } : Reader).header = false := hheader
      refine ⟨{ Reader.of config with begun := true }, [], ?_, ⟨0, rfl, rfl, htext, nofun, ?_⟩, rfl,
        hheader, rfl, rfl, rfl⟩
      · show (Reader.of config).nextData [] = Reader.nextData _ []
        rw [Reader.next_data_of_headless hnone, Reader.next_data_of_headless hbegun]
        rfl
      · rw [hempty]
        rfl
  | cons first pieces =>
      have hmark := no_mark_of_text (hpieces first List.mem_cons_self) htext hrecords
      have hfirst : first ≠ byteOrderMark := by
        rintro rfl
        cases hmark
      have hwhole : textOf (first :: pieces) = Writing.text config records := by
        rw [textOf, if_neg hfirst, hmark, if_neg Bool.false_ne_true, ← htext]
        rfl
      obtain ⟨csv, hnext, hstands, hformat, hmode⟩ :=
        Reader.next_of_first config hfirst hpieces []
      rw [hwhole] at hstands
      have hposition := hstands.position
      rw [htext] at hposition
      refine ⟨csv, pieces, ?_, ⟨_, hstands⟩, hmode, hformat.header.trans hheader, hformat.dialect,
        ?_, rfl⟩
      · rw [List.append_nil, List.append_nil] at hnext
        rw [Reader.next_data_of_headless (hformat.header.trans hheader), ← hnext]
        exact Reader.next_data_of_headless hnone _
      · show 0 = csv.position.byte
        omega

/-- Records that all have the same number of fields, whatever is in them, are read as they were
written in a format without a header: each is given with the bytes of its line, in order, and then
the end is reported from now on. It makes no difference where the source cuts the text. -/
theorem records_of_text (sourceName : String) (config : CsvConfig)
    (hheader : config.withHeader = false) (hwritable : Writable config)
    (records : List (List String)) (hn : 1 ≤ n) (hrecords : ∀ record ∈ records, record.length = n)
    (pieces : List (List UInt8)) (hpieces : ∀ piece ∈ pieces, piece ≠ [])
    (htext : pieces.flatten = Writing.text config records) (k : Nat) :
    ((RecordReader.of sourceName config (pieces.map .bytes)).readMany (records.length + k)).1 =
      (records.map fun record => .ok ((Writing.lineBytes config record).length, record)) ++
        List.replicate k (.error .eof) := by
  have hfields : ∀ record ∈ records, record ≠ [] ∧ record.length = n := by
    intro record hrecord
    have hwidth := hrecords record hrecord
    refine ⟨?_, hwidth⟩
    rintro rfl
    rw [List.length_nil] at hwidth
    omega
  obtain ⟨csv, later, hfinds⟩ := finds_text_of_source (n := n) sourceName hheader hpieces htext
    fun record hrecord => (hfields record hrecord).1
  exact hfinds.read_many hwritable hfields k

end

namespace Awkward

/-- Fields are separated by semicolons, and comments begin with a hash. -/
def config : CsvConfig := { delimiter := some ';', comment := some '#' }

/-- Records whose fields hold what has a meaning outside of quotes. -/
def records : List (List String) := [["a;b", "\"", ""], ["#c\r\n", "\x00", "d\"\"é"]]

/-- The written records in pieces of a few bytes. -/
def pieces : List (List UInt8) :=
  [(Writing.text config records).take 9, ((Writing.text config records).drop 9).take 12,
    (Writing.text config records).drop 21]

end Awkward

/-- The awkward records are read as they were written. -/
theorem records_of_awkward :
    ((RecordReader.of "memory" Awkward.config (Awkward.pieces.map .bytes)).readMany 3).1 =
      [.ok (14, ["a;b", "\"", ""]), .ok (21, ["#c\r\n", "\x00", "d\"\"é"]),
        .error .eof] := by
  have hwritable : Writable Awkward.config := ⟨by decide, by decide, by decide⟩
  have hpieces : ∀ piece ∈ Awkward.pieces, piece ≠ [] := by decide +kernel
  have htext : Awkward.pieces.flatten = Writing.text Awkward.config Awkward.records := by
    decide +kernel
  refine (records_of_text "memory" Awkward.config rfl hwritable Awkward.records (n := 3)
    (by decide) (by decide) Awkward.pieces hpieces htext 1).trans ?_
  decide +kernel

end RecordReader

end BulkLoad.Csv
