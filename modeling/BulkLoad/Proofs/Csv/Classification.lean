import BulkLoad.Proofs.Csv.Encoding
import BulkLoad.Proofs.Csv.Lines
import BulkLoad.Proofs.Csv.Pieces
import Mathlib.Data.List.Basic
import Mathlib.Data.List.Forall2

/-!
# What becomes of each record

Each record of a text, apart from the header, has one answer, and the answers come in the order of
the records. A record is given with exactly its fields if it is UTF-8 and has as many fields as the
first record that is UTF-8. Otherwise it is skipped, and makes no difference to those that come
after it (`answers_of_lines`). A comment that the end of the text breaks off has an answer as well,
as if it were a record.
-/

namespace BulkLoad.Csv

section

variable {dialect : Dialect} {mode next : Mode} {text rest : List UInt8} {record : RawRecord}
  {records : List RawRecord} {texts : List String} {width : Option Nat}

/-! ## Records that are UTF-8 -/

/-- Fields are found to be UTF-8 exactly if they are the bytes of texts. -/
theorem decode_fields_eq_ok_iff (index : Nat) :
    decodeFields index record = .ok texts ↔ Writing.raw texts = record := by
  refine ⟨fun h => ?_, fun h => h ▸ decode_fields_raw index texts⟩
  induction record generalizing index texts with
  | nil =>
      cases h
      rfl
  | cons field rest ih =>
      rw [decodeFields] at h
      cases hfield : Text.Utf8.decode field with
      | error valid =>
          rw [hfield] at h
          cases h
      | ok content =>
          cases hrest : decodeFields (index + 1) rest with
          | error stop =>
              rw [hfield, hrest] at h
              cases h
          | ok later =>
              rw [hfield, hrest] at h
              obtain rfl := Except.ok.inj h
              have hcontent : (String.ofList content).toList = content := String.toList_ofList
              rw [Writing.raw, List.map_cons, hcontent, Text.Utf8.encode_of_decode hfield]
              exact congrArg (field :: ·) (ih _ hrest)

/-- A record is UTF-8 if its fields are the bytes of texts. -/
def IsText (record : RawRecord) : Prop := ∃ texts, Writing.raw texts = record

/-- Whether a record is UTF-8 is found by decoding it. -/
instance : DecidablePred IsText := fun record =>
  match h : decodeFields 0 record with
  | .ok texts => isTrue ⟨texts, (decode_fields_eq_ok_iff 0).mp h⟩
  | .error _ => isFalse fun ⟨_, htexts⟩ => by
      rw [(decode_fields_eq_ok_iff 0).mpr htexts] at h
      cases h

/-- The number of fields of the first record that is UTF-8. -/
def width? (records : List RawRecord) : Option Nat :=
  (records.find? fun record => decide (IsText record)).map List.length

/-- The first record has the width of all if it is UTF-8. -/
theorem width_of_text (texts : List String) (records : List RawRecord) :
    width? (Writing.raw texts :: records) = some texts.length := by
  have htext : decide (IsText (Writing.raw texts)) = true := decide_eq_true ⟨texts, rfl⟩
  rw [width?, List.find?_cons, htext]
  exact congrArg some (List.length_map _)

/-- A record that is not UTF-8 makes no difference to the width. -/
theorem width_of_no_text (h : ¬ IsText record) (records : List RawRecord) :
    width? (record :: records) = width? records := by
  rw [width?, List.find?_cons, decide_eq_false h]
  rfl

/-! ## The records of a text -/

/-- The records of the lines of a text after the header, where it is for the first argument to say
which record a line is. -/
def dataOf (record? : Line → Option RawRecord) (config : CsvConfig) (text : List UInt8) :
    List RawRecord :=
  (((Dialect.of config).lines text).filterMap record?).drop (if config.withHeader then 1 else 0)

/-- The records of a text that does not stop within a comment are found as they are. -/
theorem found_of_whole_lines {config : CsvConfig}
    (h : ((Dialect.of config).lines text).getLast? ≠ some (.comment false)) :
    dataOf Line.found? config text = dataOf Line.record? config text := by
  have hsame : ((Dialect.of config).lines text).filterMap Line.found? =
      ((Dialect.of config).lines text).filterMap Line.record? := by
    refine List.filterMap_congr fun line hline => ?_
    match line with
    | .blank | .record _ | .comment true => rfl
    | .comment false => exact absurd (Dialect.broken_comment_last _ hline) h
  rw [dataOf, dataOf, hsame]

/-- The records of a text are the first one and the records of the text after it. -/
theorem records_of_first (dialect : Dialect) (mode : Mode) (text : List UInt8) :
    recordsFrom dialect mode text =
      match firstRecord dialect mode text with
      | none => []
      | some (record, next, rest) => record :: recordsFrom dialect next rest := by
  rw [records_of_mode]
  unfold Draft.records firstRecord
  cases feed dialect ⟨mode, [], []⟩ text with
  | whole record next rest => rfl
  | partly last =>
      cases hfinish : last.finish with
      | none =>
          simp only [hfinish]
          rfl
      | some record =>
          simp only [hfinish, records_of_mode]
          rfl

/-- The records after the header are those that a reader of the source finds. -/
theorem data_of_first (config : CsvConfig) (pieces : List (List UInt8)) :
    dataOf Line.found? config (textOf pieces) =
      match firstData config pieces with
      | none => []
      | some (record, mode, rest) => record :: recordsFrom (Dialect.of config) mode rest := by
  rw [dataOf, ← records_of_lines]
  unfold firstData afterHeader
  cases config.withHeader with
  | false => exact records_of_first _ _ _
  | true =>
      rw [records_of_first]
      simp only [if_true]
      cases firstRecord (Dialect.of config) .recordStart (textOf pieces) with
      | none => simp only [first_record_nil, List.drop_nil]
      | some found =>
          obtain ⟨header, mode, rest⟩ := found
          exact records_of_first _ mode rest

/-! ## The answers -/

/-- An answer to a record, where records must have this width: it is given or skipped, and given
just if it is UTF-8 and has the width, with its own fields. -/
structure Answered (width : Option Nat) (record : RawRecord) (answer : ReadResult) : Prop where
  accounts : accountsFor answer = true
  given_iff : ∀ texts, (∃ bytes, answer = .ok (bytes, texts)) ↔
    Writing.raw texts = record ∧ width = some texts.length

/-- Records that are given have the same number of fields. -/
theorem width_of_given {answers : List ReadResult} {bytes : Nat}
    (h : List.Forall₂ (Answered width) records answers) (hgiven : .ok (bytes, texts) ∈ answers) :
    width = some texts.length := by
  induction h with
  | nil => cases hgiven
  | cons hanswer hanswers ih =>
      rcases List.mem_cons.mp hgiven with hfirst | hlater
      · exact ((hanswer.given_iff texts).mp ⟨bytes, hfirst.symm⟩).2
      · exact ih hlater

end

namespace RecordReader

section

variable {dialect : Dialect} {mode : Mode} {text : List UInt8} {record : RawRecord}
  {records : List RawRecord} {width : Option Nat} {r : RecordReader} {csv : Reader}
  {input : List Serving} {pieces : List (List UInt8)} {total : Nat}

/-- A record that is found has its answer. What is the width of all records before is so after, by
what the reader has learned of it or by the records that are still to come. -/
theorem answered_of_data (h : r.csv.nextData r.input = (.record record, csv, input))
    (hwidth : r.expected.or (width? (record :: records)) = width) :
    Answered width record r.read.1 ∧ r.read.2.expected.or (width? records) = width := by
  cases hdecode : decodeFields 0 record with
  | error stop =>
      have hno (texts : List String) : Writing.raw texts ≠ record := fun htexts => by
        rw [(decode_fields_eq_ok_iff 0).mpr htexts] at hdecode
        cases hdecode
      rw [width_of_no_text fun ⟨texts, htexts⟩ => hno texts htexts] at hwidth
      simp only [read, h, hdecode]
      refine ⟨⟨rfl, fun texts => ⟨?_, fun htexts => absurd htexts.1 (hno texts)⟩⟩, hwidth⟩
      rintro ⟨bytes, hgiven⟩
      cases hgiven
  | ok texts =>
      obtain rfl := (decode_fields_eq_ok_iff 0).mp hdecode
      -- The first record that is UTF-8 decides, whether it has been read before or is this one.
      have hexpected : width = some (r.expected.getD texts.length) := by
        rw [← hwidth, width_of_text]
        cases r.expected <;> rfl
      have honly {others : List String} (hothers : Writing.raw others = Writing.raw texts) :
          texts = others := by
        rw [(decode_fields_eq_ok_iff 0).mpr hothers] at hdecode
        exact (Except.ok.inj hdecode).symm
      simp only [read, h, hdecode, beq_iff_eq]
      split
      next hsame =>
        refine ⟨⟨rfl, fun others => ⟨?_, ?_⟩⟩, hexpected.symm⟩
        · rintro ⟨bytes, hgiven⟩
          cases hgiven
          exact ⟨rfl, by rw [hexpected, ← hsame]⟩
        · rintro ⟨hothers, -⟩
          exact ⟨_, by rw [honly hothers]⟩
      next hother =>
        refine ⟨⟨rfl, fun others => ⟨?_, ?_⟩⟩, hexpected.symm⟩
        · rintro ⟨bytes, hgiven⟩
          cases hgiven
        · rintro ⟨hothers, hsame⟩
          rw [hexpected, ← honly hothers] at hsame
          exact absurd (Option.some.inj hsame).symm hother

/-- A reader that stands before a text has one answer to each of its records. -/
theorem StandsBefore.answers (h : r.StandsBefore mode text pieces total)
    (hdialect : r.csv.dialect = dialect) (hrecords : recordsFrom dialect mode text = records)
    (hwidth : r.expected.or (width? records) = width) :
    ∃ answers, r.Gives answers ∧ List.Forall₂ (Answered width) records answers := by
  induction records generalizing r mode text pieces with
  | nil =>
      rw [records_of_first] at hrecords
      cases hfirst : firstRecord dialect mode text with
      | none => exact ⟨[], gives_nothing (h.read_none (hdialect ▸ hfirst)), .nil⟩
      | some found =>
          rw [hfirst] at hrecords
          cases hrecords
  | cons record records ih =>
      rw [records_of_first] at hrecords
      cases hfirst : firstRecord dialect mode text with
      | none =>
          rw [hfirst] at hrecords
          cases hrecords
      | some found =>
          obtain ⟨first, next, rest⟩ := found
          rw [hfirst] at hrecords
          obtain ⟨rfl, hrest⟩ := List.cons.inj hrecords
          obtain ⟨after, later, hdata, -⟩ := h.data_some (hdialect ▸ hfirst)
          obtain ⟨-, -, hsame, later, hafter⟩ := h.read_some (hdialect ▸ hfirst)
          obtain ⟨hanswer, hwidth⟩ := answered_of_data hdata hwidth
          obtain ⟨answers, hgives, hanswers⟩ := ih hafter (hsame.trans hdialect) hrest hwidth
          exact ⟨_, hgives.of_rest, .cons hanswer hanswers⟩

/-- A reader of a source has one answer to each record after the header, in their order. -/
theorem answers_of_config (sourceName : String) (config : CsvConfig)
    (hpieces : ∀ piece ∈ pieces, piece ≠ []) :
    ∃ answers, (RecordReader.of sourceName config (pieces.map .bytes)).Gives answers ∧
      List.Forall₂ (Answered (width? (dataOf Line.found? config (textOf pieces))))
        (dataOf Line.found? config (textOf pieces)) answers := by
  rw [data_of_first]
  rcases Reader.first_of_config config pieces hpieces with
    ⟨hfirst, csv, input, hdata⟩ |
    ⟨record, mode, rest, csv, later, hfirst, hdata, hafter, hdialect, hheader, hmode⟩
  · rw [hfirst]
    exact ⟨[], gives_nothing (read_of_eof hdata), .nil⟩
  · rw [hfirst]
    have hunset (width : Option Nat) : (none : Option Nat).or width = width := Option.none_or
    obtain ⟨hanswer, hwidth⟩ := answered_of_data (r := .of sourceName config (pieces.map .bytes))
      hdata (hunset (width? (record :: recordsFrom (Dialect.of config) mode rest)))
    have hstands := stands_of_data (r := .of sourceName config (pieces.map .bytes)) hdata hafter
      hheader hmode
    have hcsv := (read_of_record (r := .of sourceName config (pieces.map .bytes)) hdata).2.2.1
    obtain ⟨answers, hgives, hanswers⟩ := hstands.answers (hcsv ▸ hdialect) rfl hwidth
    exact ⟨_, hgives.of_rest, .cons hanswer hanswers⟩

/-- A reader has one answer to each record after the header, in their order, wherever its source
cuts the text, and then reports the end from now on. A record is given, with its own fields, just if
it is UTF-8 and has as many fields as the first record that is; so all records that are given have
the same number of fields. The records are those of the lines, unless the text stops within a
comment, which is then taken for a last record. The text is what the source serves, apart from a
mark before it. -/
theorem answers_of_lines (sourceName : String) (config : CsvConfig) (pieces : List (List UInt8))
    (hpieces : ∀ piece ∈ pieces, piece ≠ []) :
    ∃ answers, (RecordReader.of sourceName config (pieces.map .bytes)).Gives answers ∧
      List.Forall₂ (Answered (width? (dataOf Line.found? config (textOf pieces))))
        (dataOf Line.found? config (textOf pieces)) answers ∧
      (∀ bytes texts, .ok (bytes, texts) ∈ answers →
        width? (dataOf Line.found? config (textOf pieces)) = some texts.length) ∧
      (((Dialect.of config).lines (textOf pieces)).getLast? ≠ some (.comment false) →
        dataOf Line.found? config (textOf pieces) = dataOf Line.record? config (textOf pieces)) ∧
      (¬ byteOrderMark <+: pieces.flatten → textOf pieces = pieces.flatten) := by
  obtain ⟨answers, hgives, hanswers⟩ := answers_of_config sourceName config hpieces
  exact ⟨answers, hgives, hanswers, fun _ _ hgiven => width_of_given hanswers hgiven,
    found_of_whole_lines, text_of_unmarked hpieces⟩

end

namespace Mixed

/-- Comments begin with a hash, and the first record is a header. -/
def config : CsvConfig := { comment := some '#', withHeader := true }

/-- A header, a comment, a blank line, a record that is not UTF-8, one with a character and a
carriage return between quotes, one with a field too few, and one without a line's end, in pieces
that cut the character. -/
def pieces : List (List UInt8) :=
  [[104, 10, 35, 44, 10, 10, 0xFF, 44, 49, 10, 34, 0xC3],
    [0xA9, 13, 34, 44, 98, 10, 50, 10, 51], [44, 99]]

/-- The records after the header. -/
def records : List RawRecord :=
  [[[0xFF], [49]], Writing.raw ["é\r", "b"], Writing.raw ["2"], Writing.raw ["3", "c"]]

end Mixed

/-- Of the mixed records, those with two fields that are UTF-8 are given. -/
theorem answers_of_mixed_lines :
    ∃ answers, (RecordReader.of "memory" Mixed.config (Mixed.pieces.map .bytes)).Gives answers ∧
      List.Forall₂ (Answered (some 2)) Mixed.records answers := by
  have hpieces : ∀ piece ∈ Mixed.pieces, piece ≠ [] := by decide
  have hrecords : dataOf Line.found? Mixed.config (textOf Mixed.pieces) = Mixed.records := by
    decide +kernel
  have hwidth : width? Mixed.records = some 2 := by decide +kernel
  obtain ⟨answers, hgives, hanswers, -⟩ :=
    answers_of_lines "memory" Mixed.config Mixed.pieces hpieces
  rw [hrecords, hwidth] at hanswers
  exact ⟨answers, hgives, hanswers⟩

/-- It is not so that a reader has an answer to each record and no others: a comment that the end of
the text breaks off is given as a record with one empty field. -/
theorem not_all_answers_of_records :
    ¬ ∀ (sourceName : String) (config : CsvConfig) (pieces : List (List UInt8)),
      (∀ piece ∈ pieces, piece ≠ []) →
        ∃ answers, (RecordReader.of sourceName config (pieces.map .bytes)).Gives answers ∧
          List.Forall₂ (Answered (width? (dataOf Line.record? config (textOf pieces))))
            (dataOf Line.record? config (textOf pieces)) answers := by
  intro h
  obtain ⟨answers, hgives, hanswers⟩ :=
    h "memory" { comment := some '#' } [[35, 99]] (by decide)
  have hnone : dataOf Line.record? { comment := some '#' } (textOf [[35, 99]]) = [] := by
    decide +kernel
  rw [hnone] at hanswers
  cases hanswers
  have hend := hgives 1
  revert hend
  decide +kernel

end RecordReader

end BulkLoad.Csv
