import BulkLoad.Proofs.Csv.Accounting
import BulkLoad.Proofs.Reader.Stream

/-!
# A source that fails

A failure of the source ends the records: those before it are read or skipped, the failure is
reported once, and from then on the end is reported (`outcomes_of_fault`).
-/

namespace BulkLoad.Csv

namespace Reader

/-- What a reader finds before a failure of its source: a record, after which it stands before fewer
than so many bytes, or the failure. -/
def FindsFault (r : Reader) (served : List Serving) (message : String) (input : List Serving)
    (length : Nat) : Prop :=
  (∃ (record : RawRecord) (rest : List UInt8) (after : Reader) (later : List (List UInt8))
      (total : Nat),
    r.nextData served = (.record record, after, later.map .bytes ++ .fault message :: input) ∧
      after.StandsBefore rest later total ∧ rest.length < length) ∨
  ∃ after : Reader, r.nextData served = (.fault message, after, input) ∧ after.ended = true

section

variable {r after : Reader} {text : List UInt8} {pieces : List (List UInt8)} {total : Nat}
  {message : String} {input left : List Serving}

/-- Before a failure, a reader finds a record or the failure. -/
theorem StandsBefore.next_of_fault (h : r.StandsBefore text pieces total) (message : String)
    (input : List Serving) :
    (∃ (record : RawRecord) (rest : List UInt8) (after : Reader) (later : List (List UInt8)),
      r.next (pieces.map .bytes ++ .fault message :: input) =
          (.record record, after, later.map .bytes ++ .fault message :: input) ∧
        after.StandsBefore rest later total ∧ after.SameFormat r ∧ rest.length < text.length) ∨
    ∃ after : Reader, r.next (pieces.map .bytes ++ .fault message :: input) =
        (.fault message, after, input) ∧ after.ended = true := by
  rw [next, h.running, if_neg Bool.false_ne_true]
  cases hfeed : feed r.dialect ⟨r.mode, [], []⟩ text with
  | whole record mode rest =>
      obtain ⟨after, later, hpull, hafter, hformat, -⟩ :=
        pull_of_whole h hfeed (.fault message :: input)
      exact .inl ⟨record, rest, after, later, hpull, hafter, hformat, length_rest_lt hfeed⟩
  | partly d =>
      obtain ⟨last, before, hpull, hlast, -⟩ := pull_of_partly h hfeed (.fault message :: input)
      rw [hpull]
      exact .inr (pull_fault hlast message input)

/-- A failure in place of the header is reported. -/
theorem next_data_of_fault (hnext : r.next input = (.fault message, after, left)) :
    r.nextData input = (.fault message, after, left) := by
  unfold nextData
  cases r.header with
  | false => rw [if_neg Bool.false_ne_true, hnext]
  | true => rw [if_pos rfl, hnext]

/-- Before a failure, a reader finds a record after the header or the failure. -/
theorem StandsBefore.next_data_of_fault (h : r.StandsBefore text pieces total) (message : String)
    (input : List Serving) :
    r.FindsFault (pieces.map .bytes ++ .fault message :: input) message input text.length := by
  rcases h.next_of_fault message input with
    ⟨header, data, middle, more, hnext, hmiddle, -, hdata⟩ | ⟨after, hnext, hended⟩
  · unfold FindsFault nextData
    cases r.header with
    | false =>
        rw [if_neg Bool.false_ne_true, hnext]
        exact .inl ⟨header, data, middle, more, total, rfl, hmiddle, hdata⟩
    | true =>
        rw [if_pos rfl, hnext]
        rcases hmiddle.drop_header.next_of_fault message input with
          ⟨record, rest, after, later, hrecord, hafter, -, hrest⟩ | ⟨after, hfault, hended⟩
        · exact .inl ⟨record, rest, after, later, total, hrecord, hafter, Nat.lt_trans hrest hdata⟩
        · exact .inr ⟨after, hfault, hended⟩
  · exact .inr ⟨after, Reader.next_data_of_fault hnext, hended⟩

/-- A reader whose source serves pieces and then fails finds the failure in the end. -/
theorem of_finds_fault (config : CsvConfig) (hpieces : ∀ piece ∈ pieces, piece ≠ [])
    (hfirst : pieces.head? ≠ some byteOrderMark) (message : String) (input : List Serving) :
    (Reader.of config).FindsFault (pieces.map .bytes ++ .fault message :: input) message input
      pieces.flatten.length := by
  cases pieces with
  | nil =>
      refine .inr ?_
      obtain ⟨after, hnext, hended⟩ : ∃ after : Reader,
          (Reader.of config).next (.fault message :: input) = (.fault message, after, input) ∧
            after.ended = true := pull_fault rfl message input
      exact ⟨after, next_data_of_fault hnext, hended⟩
  | cons first pieces =>
      obtain ⟨r, hnext, hstands, hformat, -⟩ := next_of_first config
        (fun hmark => hfirst (congrArg some hmark)) hpieces (.fault message :: input)
      have hdata : (Reader.of config).nextData
          ((first :: pieces).map .bytes ++ .fault message :: input) =
            r.nextData (pieces.map .bytes ++ .fault message :: input) := by
        rw [nextData, nextData, hnext, hformat.header]
      have hposition := hstands.position
      unfold FindsFault
      rw [hdata]
      rcases hstands.next_data_of_fault message input with
        ⟨record, rest, after, later, total, hrecord, hafter, hrest⟩ | hfault
      · exact .inl ⟨record, rest, after, later, total, hrecord, hafter, by omega⟩
      · exact .inr hfault

end

end Reader

namespace RecordReader

section

variable {r : RecordReader} {csv : Reader} {text : List UInt8} {pieces : List (List UInt8)}
  {total limit : Nat} {message : String} {input : List Serving}

/-- A failure of the source is reported, and after it the end. -/
theorem read_of_fault (h : r.csv.nextData r.input = (.fault message, csv, input))
    (hended : csv.ended = true) :
    r.read.1 = .error (.failed r.sourceName message) ∧ r.read.2.read.1 = .error .eof := by
  have hread : r.read = (.error (.failed r.sourceName message),
      { r with csv, input, charged := csv.position.byte }) := by
    simp only [read, h]
  rw [hread]
  obtain ⟨after, hdata, -⟩ := Reader.next_data_of_end (Reader.next_of_ended hended input) hended
  exact ⟨rfl, read_of_eof hdata⟩

/-- Reading goes on after an answer that is not the end. -/
theorem read_to_end_succ (h : r.read.1 ≠ .error .eof) (limit : Nat) :
    r.readToEnd 1 (limit + 1) = r.read.1 :: r.read.2.readToEnd 1 limit := by
  obtain ⟨result, after, hread⟩ : ∃ result after, r.read = (result, after) := ⟨_, _, rfl⟩
  rw [hread] at h
  simp only [readToEnd, hread]
  -- The answer is not the end, so one end is still awaited.
  split
  next hend => cases hend
  next => rfl

/-- Reading stops at the end. -/
theorem read_to_end_eof (h : r.read.1 = .error .eof) (limit : Nat) :
    r.readToEnd 1 (limit + 1) = [.error .eof] := by
  obtain ⟨result, after, hread⟩ : ∃ result after, r.read = (result, after) := ⟨_, _, rfl⟩
  rw [hread] at h
  cases h
  simp only [readToEnd, hread]
  cases limit <;> rfl

/-- A reader keeps the name of its source. -/
theorem read_source_name (r : RecordReader) : r.read.2.sourceName = r.sourceName := by
  simp only [read]
  split
  · rfl
  · rfl
  · split
    · rfl
    · split <;> rfl

/-- Before a failure of the source the answers account for records, then it is reported, and then
the end. -/
theorem read_to_end_of_fault {length : Nat} (h : r.csv.FindsFault r.input message input length)
    (hlimit : length + 2 ≤ limit) :
    ∃ results : List ReadResult,
      r.readToEnd 1 limit = results ++ [.error (.failed r.sourceName message), .error .eof] ∧
        ∀ result ∈ results, accountsFor result = true := by
  induction limit generalizing r length with
  | zero => omega
  | succ limit ih =>
      rcases h with
        ⟨record, rest, after, later, total, hdata, hafter, hrest⟩ | ⟨after, hdata, hended⟩
      · obtain ⟨haccounts, -, hcsv, hleft, -⟩ := read_of_record hdata
        have hmore : r.read.1 ≠ .error .eof := fun heof => by
          rw [heof] at haccounts
          cases haccounts
        have hfinds : r.read.2.csv.FindsFault r.read.2.input message input rest.length := by
          rw [hcsv, hleft]
          exact hafter.next_data_of_fault message input
        obtain ⟨results, hresults, hall⟩ := ih hfinds (by omega)
        refine ⟨r.read.1 :: results, ?_, ?_⟩
        · rw [read_to_end_succ hmore, hresults, read_source_name, List.cons_append]
        · exact List.forall_mem_cons.mpr ⟨haccounts, hall⟩
      · obtain ⟨hfailed, hend⟩ := read_of_fault hdata hended
        obtain ⟨limit, rfl⟩ := Nat.exists_eq_add_one.mpr (show 0 < limit by omega)
        refine ⟨[], ?_, nofun⟩
        rw [read_to_end_succ (by rw [hfailed]; exact nofun), read_to_end_eof hend, hfailed]
        rfl

/-- There are no more bytes in pieces than there is to load. -/
theorem length_le_load (pieces : List (List UInt8)) (input : List Serving) :
    pieces.flatten.length ≤ load (pieces.map .bytes ++ input) := by
  induction pieces with
  | nil => exact Nat.zero_le _
  | cons piece pieces ih =>
      rw [List.map_cons, List.cons_append, load, List.flatten_cons, List.length_append]
      omega

/-- An answer that accounts for a record gives one or skips one. -/
theorem goes_on_of_accounts_for {result : ReadResult} (h : accountsFor result = true) :
    (outcomeOf result).goesOn = true := by
  cases result with
  | ok => rfl
  | error error =>
      cases error with
      | skip => rfl
      | eof | failed | source | convert | aborted => cases h

/-- What a reader answers if its source serves some pieces and then fails: records that are given or
skipped, the failure, and the end. A source whose first piece is nothing but the mark before the
text is not asked for more. -/
theorem outcomes_of_fault (sourceName : String) (config : CsvConfig) (pieces : List (List UInt8))
    (hpieces : ∀ piece ∈ pieces, piece ≠ []) (hfirst : pieces.head? ≠ some byteOrderMark)
    (message : String) (input : List Serving) :
    ∃ before : List RecordOutcome,
      (RecordReader.of sourceName config (pieces.map .bytes ++ .fault message :: input)).outcomes =
          before ++ [.error (.failed sourceName message), .error .eof] ∧
        ∀ outcome ∈ before, outcome.goesOn = true := by
  have hfinds := Reader.of_finds_fault config hpieces hfirst message input
  have hlimit := length_le_load pieces (.fault message :: input)
  generalize pieces.map Serving.bytes ++ .fault message :: input = served at hfinds hlimit ⊢
  obtain ⟨results, hresults, hall⟩ := read_to_end_of_fault
    (r := .of sourceName config served) hfinds
    (show pieces.flatten.length + 2 ≤ 0 + load served + 3 by omega)
  refine ⟨results.map outcomeOf, ?_, ?_⟩
  · show List.map outcomeOf ((RecordReader.of sourceName config served).readToEnd 1
      (0 + load served + 3)) = _
    rw [hresults, List.map_append]
    rfl
  · intro outcome houtcome
    obtain ⟨result, hresult, rfl⟩ := List.mem_map.mp houtcome
    exact goes_on_of_accounts_for (hall result hresult)

/-- A source whose first piece is nothing but the mark before the text is not asked for more. -/
theorem outcomes_of_mark (sourceName : String) (config : CsvConfig) (input : List Serving) :
    (RecordReader.of sourceName config (.bytes byteOrderMark :: input)).outcomes =
      [.error .eof] := by
  obtain ⟨-, csv, hnext, hended⟩ := Reader.next_of_nothing config input
  obtain ⟨csv, hdata, -⟩ := Reader.next_data_of_end hnext hended
  have hread : (RecordReader.of sourceName config (.bytes byteOrderMark :: input)).read.1 =
      .error .eof := read_of_eof hdata
  unfold outcomes
  rw [read_to_end_eof hread]
  rfl

/-- A failure that a reader reports is that of its source, and only the end comes after it. -/
theorem failure_of_fault {sourceName : String} {config : CsvConfig}
    (hpieces : ∀ piece ∈ pieces, piece ≠ []) {before after : List RecordOutcome} {error : ReadError}
    (hskip : error.isSkip = false) (heof : error.isEof = false)
    (hsuffix : before ++ .error error :: after <:+
      (RecordReader.of sourceName config (pieces.map .bytes ++ .fault message :: input)).outcomes) :
    error = .failed sourceName message ∧ after = [.error .eof] := by
  obtain ⟨earlier, hearlier⟩ := hsuffix
  by_cases hfirst : pieces.head? = some byteOrderMark
  · obtain ⟨pieces, rfl⟩ := List.head?_eq_some_iff.mp hfirst
    -- The only answer is the end, which is no failure.
    have hmem : RecordOutcome.error error ∈ [RecordOutcome.error .eof] := by
      rw [← outcomes_of_mark sourceName config (pieces.map .bytes ++ .fault message :: input)]
      exact hearlier ▸ List.mem_append_right _ (List.mem_append_right _ List.mem_cons_self)
    cases List.mem_singleton.mp hmem
    cases heof
  · obtain ⟨given, houtcomes, hgoes⟩ :=
      outcomes_of_fault sourceName config pieces hpieces hfirst message input
    rw [houtcomes, ← List.append_assoc] at hearlier
    -- What is given before the failure of the source is no failure, and the end is none either.
    rcases List.append_eq_append_iff.mp hearlier with
      ⟨more, hgiven, hrest⟩ | ⟨more, -, hrest⟩
    · cases more with
      | nil =>
          cases hrest
          exact ⟨rfl, rfl⟩
      | cons outcome more =>
          cases hrest
          have hgoes := hgoes (.error error) (hgiven ▸ List.mem_append_right _ List.mem_cons_self)
          cases error with
          | skip => cases hskip
          | eof | failed | source | convert | aborted => cases hgoes
    · rcases more with - | ⟨failure, - | ⟨_, more⟩⟩
      · cases hrest
        exact ⟨rfl, rfl⟩
      · cases hrest
        cases heof
      · cases more <;> cases hrest

end

end RecordReader

end BulkLoad.Csv
