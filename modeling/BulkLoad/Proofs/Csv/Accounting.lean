import BulkLoad.Proofs.Csv.Reading

/-!
# Which bytes are accounted for

Each record that is read, and each that is skipped, accounts for the bytes since the last one. The
end of the source accounts for nothing, so the bytes after the last record are lost to the account:
line ends, blank lines and comments, and everything if there is no record but the header.
`uncharged` are these bytes, and `consumed_add_uncharged` says that no others are missing.
-/

namespace BulkLoad.Csv

/-! ## The bytes of a text -/

/-- The text in the pieces that a source serves. A mark before the text is dropped from the first
piece if it lies in it completely, and a first piece that holds nothing else ends the text. -/
def textOf : List (List UInt8) → List UInt8
  | [] => []
  | first :: pieces =>
      if first = byteOrderMark then []
      else
        (if byteOrderMark.isPrefixOf first then first.drop byteOrderMark.length else first) ++
          pieces.flatten

/-- The mode and the text after the header, which is dropped if there is one. -/
def afterHeader (dialect : Dialect) (header : Bool) (text : List UInt8) : Mode × List UInt8 :=
  if header then
    match firstRecord dialect .recordStart text with
    | none => (.recordStart, [])
    | some (_, mode, rest) => (mode, rest)
  else (.recordStart, text)

/-- The bytes after the last record of a text, which are all of them if there is none. -/
def afterLast (dialect : Dialect) (mode : Mode) (text : List UInt8) : List UInt8 :=
  match _h : feed dialect ⟨mode, [], []⟩ text with
  | .partly d => if d.finish.isNone then text else []
  | .whole _ next rest => afterLast dialect next rest
termination_by text.length
decreasing_by exact length_rest_lt ‹_›

/-- The first record after the header of what a source serves, with the mode and the text after it.
-/
def firstData (config : CsvConfig) (pieces : List (List UInt8)) :
    Option (RawRecord × Mode × List UInt8) :=
  let dialect := Dialect.of config
  let data := afterHeader dialect config.withHeader (textOf pieces)
  firstRecord dialect data.1 data.2

/-- The bytes for which no answer accounts: those after the last record, and all of them if there is
no record after the header. -/
def uncharged (config : CsvConfig) (pieces : List (List UInt8)) : List UInt8 :=
  match firstData config pieces with
  | none => pieces.flatten
  | some (_, mode, rest) => afterLast (Dialect.of config) mode rest

section

variable {dialect : Dialect} {mode : Mode} {text : List UInt8}

/-- Nothing comes after the header of an empty text. -/
theorem first_data_nil {config : CsvConfig} {pieces : List (List UInt8)}
    (h : textOf pieces = []) : firstData config pieces = none := by
  simp only [firstData, afterHeader, h, first_record_nil]
  split <;> rfl

/-- Without a record, all bytes come after the last one. -/
theorem after_last_of_none (h : firstRecord dialect mode text = none) :
    afterLast dialect mode text = text := by
  unfold firstRecord at h
  unfold afterLast
  split at h
  next d hfeed =>
    split
    next last hlast =>
      obtain rfl := Fed.partly.inj (hfeed.symm.trans hlast)
      rw [Option.map_eq_none_iff.mp h]
      rfl
    next hlast =>
      rw [hfeed] at hlast
      cases hlast
  next => cases h

/-- The bytes after the last record come after the first. -/
theorem after_last_of_some {record : RawRecord} {next : Mode} {rest : List UInt8}
    (h : firstRecord dialect mode text = some (record, next, rest)) :
    afterLast dialect mode text = afterLast dialect next rest := by
  unfold firstRecord at h
  rw [afterLast.eq_def]
  split at h
  next d hfeed =>
    obtain ⟨found, hfinish, hfound⟩ := Option.map_eq_some_iff.mp h
    cases hfound
    rw [after_last_of_none (first_record_nil dialect)]
    split
    next last hlast =>
      obtain rfl := Fed.partly.inj (hfeed.symm.trans hlast)
      rw [hfinish]
      rfl
    next hlast =>
      rw [hfeed] at hlast
      cases hlast
  next found after left hfeed =>
    cases h
    split
    next hlast =>
      rw [hfeed] at hlast
      cases hlast
    next hlast =>
      rw [hfeed] at hlast
      cases hlast
      rfl

end

/-! ## The first record -/

namespace Reader

section

variable {r : Reader} {text : List UInt8} {pieces : List (List UInt8)} {total : Nat}

/-- A reader that drops its header stands where it stood. -/
theorem StandsBefore.drop_header (h : r.StandsBefore text pieces total) :
    ({ r with header := false } : Reader).StandsBefore text pieces total :=
  ⟨h.begun, h.running, h.split, h.nonempty, h.position⟩

/-- A reader without a header to drop finds records as they come. -/
theorem next_data_of_headless (h : r.header = false) (input : List Serving) :
    r.nextData input = r.next input := by
  rw [nextData, h, if_neg Bool.false_ne_true]

/-- Once the end has been found there is no record after the header. -/
theorem next_data_of_end {after : Reader} {input left : List Serving}
    (hnext : r.next input = (.eof, after, left)) (hended : after.ended = true) :
    ∃ after : Reader, r.nextData input = (.eof, after, left) ∧ after.ended = true := by
  cases hheader : r.header with
  | false =>
      rw [next_data_of_headless hheader, hnext]
      exact ⟨after, rfl, hended⟩
  | true =>
      rw [nextData, hheader, if_pos rfl, hnext]
      exact ⟨_, next_of_ended (r := { after with header := false }) hended left, hended⟩

/-- Without a record after the header the reader finds the end. -/
theorem StandsBefore.next_data_none (h : r.StandsBefore text pieces total)
    (hmode : r.mode = .recordStart)
    (hfirst : firstRecord r.dialect (afterHeader r.dialect r.header text).1
      (afterHeader r.dialect r.header text).2 = none) :
    ∃ (after : Reader) (input : List Serving),
      r.nextData (pieces.map .bytes) = (.eof, after, input) := by
  unfold afterHeader at hfirst
  cases hheader : r.header with
  | false =>
      rw [hheader, if_neg Bool.false_ne_true] at hfirst
      obtain ⟨after, hnext, hended⟩ := h.next_of_none (hmode ▸ hfirst)
      obtain ⟨last, hdata, -⟩ := next_data_of_end hnext hended
      exact ⟨last, [], hdata⟩
  | true =>
      rw [hheader, if_pos rfl] at hfirst
      cases hhead : firstRecord r.dialect .recordStart text with
      | none =>
          obtain ⟨after, hnext, hended⟩ := h.next_of_none (hmode ▸ hhead)
          obtain ⟨last, hdata, -⟩ := next_data_of_end hnext hended
          exact ⟨last, [], hdata⟩
      | some found =>
          obtain ⟨record, mode, rest⟩ := found
          rw [hhead] at hfirst
          obtain ⟨after, later, hnext, hafter, hformat, hmode⟩ := h.next_of_some (hmode ▸ hhead)
          rw [nextData, hheader, if_pos rfl, hnext]
          obtain ⟨last, hlast, -⟩ := hafter.drop_header.next_of_none
            (by rw [hformat.dialect, hmode]; exact hfirst)
          exact ⟨last, [], hlast⟩

/-- The reader finds the first record after the header. -/
theorem StandsBefore.next_data_some {record : RawRecord} {next : Mode} {rest : List UInt8}
    (h : r.StandsBefore text pieces total) (hmode : r.mode = .recordStart)
    (hfirst : firstRecord r.dialect (afterHeader r.dialect r.header text).1
      (afterHeader r.dialect r.header text).2 = some (record, next, rest)) :
    ∃ (after : Reader) (later : List (List UInt8)),
      r.nextData (pieces.map .bytes) = (.record record, after, later.map .bytes) ∧
        after.StandsBefore rest later total ∧ after.dialect = r.dialect ∧ after.header = false ∧
        after.mode = next := by
  unfold afterHeader at hfirst
  unfold nextData
  cases hheader : r.header with
  | false =>
      rw [hheader, if_neg Bool.false_ne_true] at hfirst
      obtain ⟨after, later, hnext, hafter, hformat, hmode⟩ := h.next_of_some (hmode ▸ hfirst)
      rw [if_neg Bool.false_ne_true, hnext]
      exact ⟨after, later, rfl, hafter, hformat.dialect, hformat.header.trans hheader, hmode⟩
  | true =>
      rw [hheader, if_pos rfl] at hfirst
      rw [if_pos rfl]
      cases hhead : firstRecord r.dialect .recordStart text with
      | none =>
          rw [hhead] at hfirst
          cases hfirst
      | some found =>
          -- The header is read as any record, and the reader stands behind it.
          obtain ⟨header, mode, data⟩ := found
          rw [hhead] at hfirst
          obtain ⟨middle, left, hnext, hmiddle, hformat, hmode⟩ := h.next_of_some (hmode ▸ hhead)
          rw [hnext]
          obtain ⟨after, later, hdata, hafter, hsame, hmode⟩ := hmiddle.drop_header.next_of_some
            (by rw [hformat.dialect, hmode]; exact hfirst)
          exact ⟨after, later, hdata, hafter, hsame.dialect.trans hformat.dialect, hsame.header,
            hmode⟩

/-- A reader without pieces, or with nothing but the mark before the text, finds the end at once. -/
theorem next_of_nothing (config : CsvConfig) (input : List Serving) :
    (∃ after : Reader, (Reader.of config).next [] = (.eof, after, []) ∧ after.ended = true) ∧
      ∃ after : Reader, (Reader.of config).next (.bytes byteOrderMark :: input) =
        (.eof, after, input) ∧ after.ended = true := by
  constructor <;> simp [next, Reader.of, pull.eq_def, feed, atEnd, Draft.finish, byteOrderMark]

/-- The reader that has taken its first piece, without the mark if the piece begins with it. -/
def opened (config : CsvConfig) (first : List UInt8) : Reader :=
  if byteOrderMark.isPrefixOf first then
    { Reader.of config with
      buffer := first.drop byteOrderMark.length
      begun := true
      position := { byte := byteOrderMark.length } }
  else { Reader.of config with buffer := first, begun := true }

/-- A reader takes its first piece before it finds anything. -/
theorem next_of_opened (config : CsvConfig) {first : List UInt8} (hfirst : first ≠ byteOrderMark)
    (hnonempty : first ≠ []) (input : List Serving) :
    (Reader.of config).next (.bytes first :: input) = (opened config first).next input := by
  unfold opened
  split
  next hmark =>
    -- The mark takes three bytes of the source that are not in the text.
    obtain ⟨rest, rfl⟩ := List.isPrefixOf_iff_prefix.mp hmark
    have hrest : rest ≠ [] := fun hrest => hfirst (by rw [hrest, List.append_nil])
    show (Reader.of config).pull ⟨.recordStart, [], []⟩ _ = Reader.pull _ ⟨.recordStart, [], []⟩ _
    rw [pull.eq_def]
    simp [Reader.of, feed, Position.advance, lineFeeds, byteOrderMark, hrest]
  next hmark =>
    show (Reader.of config).pull ⟨.recordStart, [], []⟩ _ = Reader.pull _ ⟨.recordStart, [], []⟩ _
    rw [pull.eq_def]
    simp [Reader.of, feed, Position.advance, lineFeeds, hmark, hnonempty]

/-- A reader that takes its first piece stands before the text. -/
theorem next_of_first (config : CsvConfig) {first : List UInt8} {pieces : List (List UInt8)}
    (hfirst : first ≠ byteOrderMark) (hpieces : ∀ piece ∈ first :: pieces, piece ≠ [])
    (input : List Serving) :
    ∃ r : Reader,
      (Reader.of config).next ((first :: pieces).map .bytes ++ input) =
          r.next (pieces.map .bytes ++ input) ∧
        r.StandsBefore (textOf (first :: pieces)) pieces (first :: pieces).flatten.length ∧
        r.SameFormat (Reader.of config) ∧ r.mode = .recordStart := by
  have hlater : ∀ piece ∈ pieces, piece ≠ [] := fun piece hpiece =>
    hpieces piece (List.mem_cons_of_mem _ hpiece)
  refine ⟨opened config first, next_of_opened config hfirst (hpieces first List.mem_cons_self) _, ?_⟩
  rw [textOf, if_neg hfirst, List.flatten_cons]
  unfold opened
  split
  next hmark =>
    obtain ⟨rest, rfl⟩ := List.isPrefixOf_iff_prefix.mp hmark
    refine ⟨⟨rfl, rfl, rfl, hlater, ?_⟩, ⟨rfl, rfl⟩, rfl⟩
    rw [List.drop_left]
    simp only [List.length_append]
    omega
  next hmark => exact ⟨⟨rfl, rfl, rfl, hlater, Nat.zero_add _⟩, ⟨rfl, rfl⟩, rfl⟩

/-- The first record of a source is the first one after the header of its text. -/
theorem next_data_of_config (config : CsvConfig) (pieces : List (List UInt8))
    (hpieces : ∀ piece ∈ pieces, piece ≠ []) :
    (textOf pieces = [] ∧ ∃ (after : Reader) (input : List Serving),
      (Reader.of config).nextData (pieces.map .bytes) = (.eof, after, input)) ∨
    ∃ (r : Reader) (later : List (List UInt8)),
      (Reader.of config).nextData (pieces.map .bytes) = r.nextData (later.map .bytes) ∧
        r.StandsBefore (textOf pieces) later pieces.flatten.length ∧
        r.SameFormat (Reader.of config) ∧ r.mode = .recordStart := by
  cases pieces with
  | nil =>
      obtain ⟨after, hnext, hended⟩ := (next_of_nothing config []).1
      obtain ⟨last, hdata, -⟩ := next_data_of_end hnext hended
      exact .inl ⟨rfl, last, _, hdata⟩
  | cons first pieces =>
      by_cases hfirst : first = byteOrderMark
      · subst hfirst
        obtain ⟨after, hnext, hended⟩ := (next_of_nothing config (pieces.map .bytes)).2
        obtain ⟨last, hdata, -⟩ := next_data_of_end hnext hended
        exact .inl ⟨by rw [textOf, if_pos rfl], last, _, hdata⟩
      · obtain ⟨r, hnext, hstands, hformat, hmode⟩ := next_of_first config hfirst hpieces []
        rw [List.append_nil, List.append_nil] at hnext
        refine .inr ⟨r, pieces, ?_, hstands, hformat, hmode⟩
        rw [nextData, nextData, hnext, hformat.header]

/-- The first request to a source finds the first record after the header of its text, or the end if
there is none. -/
theorem first_of_config (config : CsvConfig) (pieces : List (List UInt8))
    (hpieces : ∀ piece ∈ pieces, piece ≠ []) :
    (firstData config pieces = none ∧ ∃ (after : Reader) (input : List Serving),
      (Reader.of config).nextData (pieces.map .bytes) = (.eof, after, input)) ∨
    ∃ (record : RawRecord) (mode : Mode) (rest : List UInt8) (after : Reader)
      (later : List (List UInt8)),
      firstData config pieces = some (record, mode, rest) ∧
        (Reader.of config).nextData (pieces.map .bytes) =
          (.record record, after, later.map .bytes) ∧
        after.StandsBefore rest later pieces.flatten.length ∧
        after.dialect = Dialect.of config ∧ after.header = false ∧ after.mode = mode := by
  rcases next_data_of_config config pieces hpieces with
    ⟨htext, hend⟩ | ⟨r, later, hdata, hstands, hformat, hmode⟩
  · exact .inl ⟨first_data_nil htext, hend⟩
  · cases hfirst : firstData config pieces with
    | none =>
        obtain ⟨after, input, hnext⟩ := hstands.next_data_none hmode
          (by rw [hformat.dialect, hformat.header]; exact hfirst)
        exact .inl ⟨rfl, after, input, hdata.trans hnext⟩
    | some found =>
        obtain ⟨record, mode, rest⟩ := found
        obtain ⟨after, left, hnext, hafter, hdialect, hheader, hmode⟩ :=
          hstands.next_data_some hmode
            (by rw [hformat.dialect, hformat.header]; exact hfirst)
        exact .inr ⟨record, mode, rest, after, left, rfl, hdata.trans hnext, hafter,
          hdialect.trans hformat.dialect, hheader, hmode⟩

end

end Reader

/-! ## The answers -/

instance : DecidableEq ReadResult
  | .ok result, .ok other => decidable_of_iff (result = other) ⟨congrArg _, Except.ok.inj⟩
  | .error error, .error other => decidable_of_iff (error = other) ⟨congrArg _, Except.error.inj⟩
  | .ok _, .error _ | .error _, .ok _ => isFalse nofun

/-- Whether an answer accounts for a record: it gives one or skips one. -/
def accountsFor : ReadResult → Bool
  | .ok _ | .error (.skip _ _) => true
  | .error _ => false

namespace RecordReader

/-- A reader is asked until it reports the end of its source: until then it answers with records,
and together its answers account for this many bytes. -/
inductive Drains : RecordReader → Nat → Prop where
  | eof {r : RecordReader} (hend : r.read.1 = .error .eof) : Drains r 0
  | record {r : RecordReader} {bytes : Nat} (hrecord : accountsFor r.read.1 = true)
      (hrest : Drains r.read.2 bytes) : Drains r (consumed r.read.1 + bytes)

/-- A reader accounts for one number of bytes only. -/
theorem Drains.unique {r : RecordReader} {bytes others : Nat} (h : r.Drains bytes)
    (hothers : r.Drains others) : bytes = others := by
  induction h generalizing others with
  | eof hend =>
      cases hothers with
      | eof => rfl
      | record hrecord =>
          rw [hend] at hrecord
          cases hrecord
  | record hrecord hrest ih =>
      cases hothers with
      | eof hend =>
          rw [hend] at hrecord
          cases hrecord
      | record _ hothers => rw [ih hothers]

/-- A record reader that has dropped its header, has accounted for all that it has read, and stands
before a text. -/
structure StandsBefore (r : RecordReader) (mode : Mode) (text : List UInt8)
    (pieces : List (List UInt8)) (total : Nat) : Prop where
  csv : r.csv.StandsBefore text pieces total
  mode : r.csv.mode = mode
  header : r.csv.header = false
  input : r.input = pieces.map .bytes
  charged : r.charged = r.csv.position.byte

section

variable {r : RecordReader} {csv : Reader} {input : List Serving} {mode next : Mode}
  {text rest : List UInt8} {record : RawRecord} {pieces : List (List UInt8)} {total bytes : Nat}

/-- The end of the records is reported. -/
theorem read_of_eof (h : r.csv.nextData r.input = (.eof, csv, input)) :
    r.read.1 = .error .eof := by
  simp only [read, h]

/-- A reader that has ended reports the end however often it is asked. -/
theorem read_many_of_ended (hended : r.csv.ended = true) (k : Nat) :
    (r.readMany k).1 = List.replicate k (.error .eof) := by
  induction k generalizing r with
  | zero => rfl
  | succ k ih =>
      obtain ⟨after, hdata, hafter⟩ :=
        Reader.next_data_of_end (Reader.next_of_ended hended r.input) hended
      have hread : r.read = (.error .eof, { r with csv := after }) := by
        simp only [read, hdata]
      rw [readMany, hread]
      show Except.error ReadError.eof :: (({ r with csv := after } : RecordReader).readMany k).1 = _
      rw [ih hafter]
      rfl

/-- A record that is found is given or skipped, and accounts for the bytes since the last one. -/
theorem read_of_record (h : r.csv.nextData r.input = (.record record, csv, input)) :
    accountsFor r.read.1 = true ∧ consumed r.read.1 = csv.position.byte - r.charged ∧
      r.read.2.csv = csv ∧ r.read.2.input = input ∧ r.read.2.charged = csv.position.byte := by
  simp only [read, h]
  split
  · exact ⟨rfl, rfl, rfl, rfl, rfl⟩
  · split <;> exact ⟨rfl, rfl, rfl, rfl, rfl⟩

/-- With a record behind which its machine stands before a text, the record reader stands there as
well. -/
theorem stands_of_data (hdata : r.csv.nextData r.input = (.record record, csv, pieces.map .bytes))
    (hafter : csv.StandsBefore rest pieces total) (hheader : csv.header = false)
    (hmode : csv.mode = next) : r.read.2.StandsBefore next rest pieces total := by
  obtain ⟨-, -, hcsv, hinput, hcharged⟩ := read_of_record hdata
  exact ⟨hcsv ▸ hafter, hcsv ▸ hmode, hcsv ▸ hheader, hinput, by rw [hcharged, hcsv]⟩

/-- The machine of a record reader finds the first record of the text before which it stands. -/
theorem StandsBefore.data_some (h : r.StandsBefore mode text pieces total)
    (hfirst : firstRecord r.csv.dialect mode text = some (record, next, rest)) :
    ∃ (after : Reader) (later : List (List UInt8)),
      r.csv.nextData r.input = (.record record, after, later.map .bytes) ∧
        after.StandsBefore rest later total ∧ after.SameFormat r.csv ∧ after.mode = next := by
  obtain ⟨after, later, hnext, hafter⟩ := h.csv.next_of_some (h.mode ▸ hfirst)
  exact ⟨after, later, by rw [h.input, Reader.next_data_of_headless h.header, hnext], hafter⟩

/-- Reading the first record of a text accounts for the bytes before the rest. -/
theorem StandsBefore.read_some (h : r.StandsBefore mode text pieces total)
    (hfirst : firstRecord r.csv.dialect mode text = some (record, next, rest)) :
    accountsFor r.read.1 = true ∧ consumed r.read.1 + rest.length = text.length ∧
      r.read.2.csv.dialect = r.csv.dialect ∧
      ∃ later, r.read.2.StandsBefore next rest later total := by
  obtain ⟨after, later, hdata, hafter, hformat, hmode⟩ := h.data_some hfirst
  obtain ⟨haccounts, hconsumed, hcsv, -, -⟩ := read_of_record hdata
  refine ⟨haccounts, ?_, hcsv ▸ hformat.dialect, later,
    stands_of_data hdata hafter (hformat.header.trans h.header) hmode⟩
  have hbefore := h.csv.position
  have hposition := hafter.position
  have hle := length_rest_le hfirst
  rw [hconsumed, h.charged]
  omega

/-- Before a text without records the end is reported. -/
theorem StandsBefore.read_none (h : r.StandsBefore mode text pieces total)
    (hfirst : firstRecord r.csv.dialect mode text = none) : r.read.1 = .error .eof := by
  obtain ⟨after, hnext, -⟩ := h.csv.next_of_none (h.mode ▸ hfirst)
  apply read_of_eof
  rw [h.input, Reader.next_data_of_headless h.header, hnext]

/-- What is accounted for before a text without records is nothing. -/
theorem StandsBefore.drains_none (h : r.StandsBefore mode text pieces total)
    (hfirst : firstRecord r.csv.dialect mode text = none) :
    ∃ bytes, r.Drains bytes ∧ bytes + (afterLast r.csv.dialect mode text).length = text.length :=
  ⟨0, .eof (h.read_none hfirst), by rw [after_last_of_none hfirst, Nat.zero_add]⟩

/-- What is accounted for before a text is what its first record takes and what the reader accounts
for after it. -/
theorem StandsBefore.drains_some (h : r.StandsBefore mode text pieces total)
    (hfirst : firstRecord r.csv.dialect mode text = some (record, next, rest))
    (hrest : ∀ later, r.read.2.StandsBefore next rest later total →
      ∃ bytes, r.read.2.Drains bytes ∧
        bytes + (afterLast r.read.2.csv.dialect next rest).length = rest.length) :
    ∃ bytes, r.Drains bytes ∧ bytes + (afterLast r.csv.dialect mode text).length = text.length := by
  obtain ⟨haccounts, hconsumed, hdialect, later, hlater⟩ := h.read_some hfirst
  obtain ⟨bytes, hdrains, hbytes⟩ := hrest later hlater
  refine ⟨_, .record haccounts hdrains, ?_⟩
  rw [hdialect] at hbytes
  rw [after_last_of_some hfirst]
  omega

/-- A reader that stands before a text accounts for all of it but the bytes after the last record.
-/
theorem StandsBefore.drains {dialect : Dialect} (h : r.StandsBefore mode text pieces total)
    (hdialect : r.csv.dialect = dialect) :
    ∃ bytes, r.Drains bytes ∧ bytes + (afterLast r.csv.dialect mode text).length = text.length := by
  induction mode, text using afterLast.induct dialect generalizing r pieces with
  | case1 mode text d hfeed hnone =>
      refine h.drains_none ?_
      rw [hdialect, firstRecord, hfeed]
      simpa using hnone
  | case2 mode text d hfeed hsome =>
      -- The end of the input completes the last record, and leaves nothing.
      obtain ⟨record, hrecord⟩ := Option.ne_none_iff_exists'.mp (by simpa using hsome)
      have hfirst : firstRecord r.csv.dialect mode text = some (record, .recordStart, []) := by
        rw [hdialect, firstRecord, hfeed]
        simp only [hrecord, Option.map_some]
      exact h.drains_some hfirst fun later hlater => hlater.drains_none (first_record_nil _)
  | case3 mode text record next rest hfeed ih =>
      have hfirst : firstRecord r.csv.dialect mode text = some (record, next, rest) := by
        rw [hdialect, firstRecord, hfeed]
      have hnext := (h.read_some hfirst).2.2.1
      exact h.drains_some hfirst fun later hlater => ih hlater (hnext.trans hdialect)

/-- A reader of a source drains it, and accounts for all bytes but those that are uncharged. -/
theorem drains_of_config (sourceName : String) (config : CsvConfig)
    (hpieces : ∀ piece ∈ pieces, piece ≠ []) :
    ∃ bytes, (RecordReader.of sourceName config (pieces.map .bytes)).Drains bytes ∧
      bytes + (uncharged config pieces).length = pieces.flatten.length := by
  rcases Reader.first_of_config config pieces hpieces with
    ⟨hfirst, csv, input, hdata⟩ |
    ⟨record, mode, rest, csv, later, hfirst, hdata, hafter, hdialect, hheader, hmode⟩
  · exact ⟨0, .eof (read_of_eof hdata), by rw [uncharged, hfirst, Nat.zero_add]⟩
  · obtain ⟨haccounts, hconsumed, hcsv, -, -⟩ :=
      read_of_record (r := .of sourceName config (pieces.map .bytes)) hdata
    have hstands := stands_of_data (r := .of sourceName config (pieces.map .bytes)) hdata hafter
      hheader hmode
    obtain ⟨bytes, hdrains, hbytes⟩ := hstands.drains rfl
    refine ⟨_, .record haccounts hdrains, ?_⟩
    have hposition := hafter.position
    rw [hcsv, hdialect] at hbytes
    rw [uncharged, hfirst, hconsumed]
    show csv.position.byte - 0 + bytes + (afterLast (Dialect.of config) mode rest).length = _
    omega

/-- A reader that is asked until it reports the end of its source accounts for all bytes but those
that are uncharged, however the source cuts its content into pieces. It accounts for all bytes
exactly if none is uncharged. -/
theorem consumed_add_uncharged (sourceName : String) (config : CsvConfig)
    (pieces : List (List UInt8)) (hpieces : ∀ piece ∈ pieces, piece ≠ []) :
    ∃ bytes, (RecordReader.of sourceName config (pieces.map .bytes)).Drains bytes ∧
      bytes + (uncharged config pieces).length = pieces.flatten.length ∧
      (bytes = pieces.flatten.length ↔ uncharged config pieces = []) := by
  obtain ⟨bytes, hdrains, hbytes⟩ := drains_of_config sourceName config hpieces
  refine ⟨bytes, hdrains, hbytes, ?_⟩
  rw [← List.length_eq_zero_iff]
  omega

end

/-- Two lines, each of which a carriage return and a line feed end. -/
def twoLines : List UInt8 := [49, 44, 97, 13, 10, 50, 44, 98, 13, 10]

/-- The last line feed of two lines is uncharged. -/
theorem consumed_two_lines :
    uncharged {} [twoLines] = [10] ∧
      ∃ bytes, (RecordReader.of "memory" {} [.bytes twoLines]).Drains bytes ∧
        bytes + 1 = twoLines.length := by
  have huncharged : uncharged {} [twoLines] = [10] := by decide +kernel
  obtain ⟨bytes, hdrains, hbytes, -⟩ :=
    consumed_add_uncharged "memory" {} [twoLines] (by decide)
  rw [huncharged] at hbytes
  exact ⟨huncharged, bytes, hdrains, hbytes⟩

/-- It is not so that a reader always accounts for all bytes. -/
theorem not_all_consumed :
    ¬ ∀ (sourceName : String) (config : CsvConfig) (pieces : List (List UInt8)) (bytes : Nat),
      (∀ piece ∈ pieces, piece ≠ []) →
        (RecordReader.of sourceName config (pieces.map .bytes)).Drains bytes →
          bytes = pieces.flatten.length := by
  intro h
  have hdrains : (RecordReader.of "memory" {} [.bytes twoLines]).Drains _ :=
    .record (by decide +kernel) (.record (by decide +kernel) (.eof (by decide +kernel)))
  have hbytes := h "memory" {} [twoLines] _ (by decide) hdrains
  revert hbytes
  decide +kernel

end RecordReader

end BulkLoad.Csv
