import BulkLoad.Proofs.Csv.Accounting

/-!
# Where a source cuts its content

A record goes on from one piece to the next wherever the first one ends: within a field, between
quotes, between the two bytes of a line's end, or within a character. A reader that takes its
content in pieces therefore finds what a reader finds that has gathered all of them in its buffer
(`Reader.Gathers`). Only the mark before a text is looked for in the first piece alone. What a
record reader answers depends on the bytes and on what becomes of the mark, and on nothing else
(`answers_of_pieces`).
-/

namespace BulkLoad.Csv

variable {bytes more rest : List UInt8} {pieces others : List (List UInt8)}

/-! ## Bytes that are taken -/

/-- Bytes may be taken one part after the other. -/
theorem Position.advance_append (p : Position) (bytes more : List UInt8) :
    p.advance (bytes ++ more) = (p.advance bytes).advance more := by
  simp only [Position.advance, lineFeeds, List.length_append, List.count_append, Nat.add_assoc]

/-- What is taken before a rest does not depend on what comes after both. -/
theorem taken_before_append (bytes rest more : List UInt8) :
    takenBefore (bytes ++ more) (rest ++ more) = takenBefore bytes rest := by
  rw [takenBefore, takenBefore, List.length_append, List.length_append, Nat.add_sub_add_right,
    List.take_append_of_le_length (Nat.sub_le _ _)]

/-- Before a rest that comes later, all of the first bytes are taken. -/
theorem taken_before_later (h : rest.length ≤ more.length) :
    takenBefore (bytes ++ more) rest = bytes ++ takenBefore more rest := by
  rw [takenBefore, List.length_append, Nat.add_sub_assoc h, List.take_length_add_append]
  rfl

/-! ## A reader that has gathered all pieces -/

namespace Reader

variable {r s : Reader} {d next : Draft} {mode : Mode} {record : RawRecord} {input : List Serving}

/-- The reader with further bytes in its buffer. -/
def gather (r : Reader) (bytes : List UInt8) : Reader := { r with buffer := r.buffer ++ bytes }

/-- `r.Gathers input s` says that `s` has in its buffer what `r` has in its own and what is still to
come as input, and agrees with `r` in everything else. -/
inductive Gathers (r : Reader) : List Serving → Reader → Prop where
  | intro (pieces : List (List UInt8)) (hbegun : r.begun = true)
      (hpieces : ∀ piece ∈ pieces, piece ≠ []) :
      r.Gathers (pieces.map .bytes) (r.gather pieces.flatten)

/-- Gathering what is to come takes nothing. -/
theorem Gathers.position_eq (h : r.Gathers input s) : r.position = s.position := by
  obtain ⟨pieces, -, -⟩ := h
  rfl

/-- A reader without input has gathered everything. -/
theorem gathers_nothing (hbegun : r.begun = true) : r.Gathers [] r := by
  have h : r.Gathers [] (r.gather []) := .intro [] hbegun nofun
  rwa [gather, List.append_nil] at h

/-- What a reader finds agrees with what another one finds that has gathered its input, and so do
the two readers afterwards. -/
inductive FindsSame : (result gathered : Found × Reader × List Serving) → Prop where
  | intro {found : Found} {after last : Reader} {left : List Serving}
      (hgathers : after.Gathers left last) : FindsSame (found, after, left) (found, last, [])

/-- A record that is complete within the buffer is complete with further bytes behind it. -/
theorem gather_complete (hfeed : feed r.dialect d r.buffer = .whole record mode rest)
    (more : List UInt8) :
    (r.gather more).pull d [] = (.record record, (r.complete mode rest).gather more, []) := by
  have hmore : feed (r.gather more).dialect d (r.gather more).buffer =
      .whole record mode (rest ++ more) := feed_append_of_whole hfeed
  rw [pull_complete hmore]
  show (Found.record record, { r.gather more with
    buffer := rest ++ more
    mode := mode
    position := { r.position.advance (takenBefore (r.buffer ++ more) (rest ++ more)) with
      record := r.position.record + 1 } }, _) = _
  rw [taken_before_append]
  rfl

/-- Bytes that leave a record incomplete may as well have been used up before the others came. -/
theorem gather_refill (hbegun : r.begun = true) (hfeed : feed r.dialect d r.buffer = .partly next)
    (more : List UInt8) : (r.gather more).pull d [] = (r.refill more).pull next [] := by
  have hsplit : feed (r.gather more).dialect d (r.gather more).buffer =
      feed r.dialect next more := feed_append_of_partly hfeed
  cases hmore : feed r.dialect next more with
  | whole record mode rest =>
      have hrest : rest.length ≤ more.length := Nat.le_of_lt (length_rest_lt hmore)
      rw [pull_complete (hsplit.trans hmore), pull_complete (r := r.refill more) hmore]
      simp only [complete, gather, refill, taken_before_later hrest, Position.advance_append,
        hbegun]
      rfl
  | partly last =>
      rw [pull_end (hsplit.trans hmore), pull_end (r := r.refill more) hmore]
      simp only [gather, refill, Position.advance_append]

/-- Without input a reader decides by its buffer. -/
theorem pull_nothing (hbegun : r.begun = true) (d : Draft) :
    FindsSame (r.pull d []) (r.pull d []) := by
  cases hfeed : feed r.dialect d r.buffer with
  | whole record mode rest =>
      rw [pull_complete hfeed]
      exact .intro (gathers_nothing hbegun)
  | partly next =>
      rw [pull_end hfeed]
      refine .intro (gathers_nothing ?_)
      unfold atEnd
      cases next.finish <;> rfl

/-- A reader finds in pieces what it finds in their bytes. -/
theorem Gathers.same_pull (h : r.Gathers input s) (d : Draft) :
    FindsSame (r.pull d input) (s.pull d []) := by
  obtain ⟨pieces, hbegun, hpieces⟩ := h
  induction pieces generalizing r d with
  | nil =>
      have hsame : r.gather [] = r := by rw [gather, List.append_nil]
      rw [List.flatten_nil, hsame]
      exact pull_nothing hbegun d
  | cons piece pieces ih =>
      have hlater : ∀ piece ∈ pieces, piece ≠ [] := fun other hother =>
        hpieces other (List.mem_cons_of_mem _ hother)
      cases hfeed : feed r.dialect d r.buffer with
      | whole record mode rest =>
          rw [pull_complete hfeed, gather_complete hfeed]
          exact .intro (.intro (piece :: pieces) hbegun hpieces)
      | partly next =>
          -- The next piece comes into the buffer, before which all is used up.
          rw [List.map_cons, pull_refill hbegun (hpieces piece List.mem_cons_self) hfeed,
            gather_refill hbegun hfeed]
          exact ih (r := r.refill piece) next rfl hlater

/-- A reader finds the same next record in pieces and in their bytes. -/
theorem Gathers.same_next (h : r.Gathers input s) : FindsSame (r.next input) (s.next []) := by
  have hpull := h.same_pull ⟨r.mode, [], []⟩
  obtain ⟨pieces, hbegun, hpieces⟩ := h
  show FindsSame (if r.ended then (.eof, r, pieces.map .bytes) else _)
    (if r.ended then (.eof, r.gather pieces.flatten, []) else _)
  split
  · exact .intro (.intro pieces hbegun hpieces)
  · exact hpull

/-- A reader finds the same record after the header in pieces and in their bytes. -/
theorem Gathers.same_data (h : r.Gathers input s) :
    FindsSame (r.nextData input) (s.nextData []) := by
  have hheader : s.header = r.header := by
    obtain ⟨pieces, -, -⟩ := h
    rfl
  unfold nextData
  rw [hheader]
  split
  · have hsame := h.same_next
    generalize r.next input = result at hsame ⊢
    generalize s.next [] = other at hsame ⊢
    obtain @⟨found, after, last, left, hgathers⟩ := hsame
    have hdropped : ({ after with header := false } : Reader).Gathers left
        { last with header := false } := by
      obtain ⟨pieces, hbegun, hpieces⟩ := hgathers
      exact .intro pieces hbegun hpieces
    cases found with
    | fault message => exact .intro hgathers
    | record | eof => exact hdropped.same_next
  · exact h.same_next

/-- A reader that finds nothing in its last draft has ended. -/
theorem ended_of_at_end {last after : Reader} {left : List Serving}
    (h : ((last.atEnd d).1, (last.atEnd d).2, input) = (.eof, after, left)) :
    after.ended = true := by
  unfold atEnd at h
  split at h
  · cases h
    rfl
  · cases h

/-- A reader that finds the end has ended. -/
theorem ended_of_pull {after : Reader} {left : List Serving}
    (h : r.pull d input = (.eof, after, left)) : after.ended = true := by
  induction input generalizing r d with
  | nil =>
      rw [pull.eq_def] at h
      split at h
      · cases h
      · exact ended_of_at_end h
  | cons serving input ih =>
      rw [pull.eq_def] at h
      split at h
      · cases h
      · cases serving with
        | fault message => cases h
        | bytes piece =>
            -- With and without a mark, a piece that holds nothing else is the end.
            simp only at h
            split at h
            all_goals
              split at h
              · exact ended_of_at_end h
              · exact ih h

/-- A reader that finds the end in place of a record has ended. -/
theorem ended_of_next {after : Reader} {left : List Serving}
    (h : r.next input = (.eof, after, left)) : after.ended = true := by
  unfold next at h
  split at h
  next hended =>
    cases h
    exact hended
  next => exact ended_of_pull h

/-- A reader that finds the end in place of a record after the header has ended. -/
theorem ended_of_next_data {after : Reader} {left : List Serving}
    (h : r.nextData input = (.eof, after, left)) : after.ended = true := by
  unfold nextData at h
  split at h
  · split at h
    · cases h
    · exact ended_of_next h
  · exact ended_of_next h

/-! ## The first piece -/

/-- What has been gathered when the first piece has been taken: the text, before which a mark may
have been skipped. -/
theorem gather_opened (config : CsvConfig) {first : List UInt8} (hfirst : first ≠ byteOrderMark)
    (pieces : List (List UInt8)) :
    (opened config first).gather pieces.flatten =
      { Reader.of config with
        buffer := textOf (first :: pieces)
        begun := true
        position := {
          byte := (first :: pieces).flatten.length - (textOf (first :: pieces)).length } } := by
  rw [textOf, if_neg hfirst, List.flatten_cons]
  unfold opened
  split
  next hmark =>
    obtain ⟨rest, rfl⟩ := List.isPrefixOf_iff_prefix.mp hmark
    have hskipped : (byteOrderMark ++ rest ++ pieces.flatten).length -
        (rest ++ pieces.flatten).length = byteOrderMark.length := by
      simp only [List.length_append]
      omega
    rw [List.drop_left, hskipped]
    rfl
  next hmark =>
    rw [Nat.sub_self]
    rfl

/-- Only a first piece that is nothing but the mark leaves no text. -/
theorem first_of_no_text {first : List UInt8} (hpieces : ∀ piece ∈ first :: pieces, piece ≠ [])
    (h : textOf (first :: pieces) = []) : first = byteOrderMark := by
  refine Decidable.byContradiction fun hfirst => ?_
  rw [textOf, if_neg hfirst] at h
  have hnone := (List.append_eq_nil_iff.mp h).1
  split at hnone
  next hmark =>
    obtain ⟨rest, rfl⟩ := List.isPrefixOf_iff_prefix.mp hmark
    rw [List.drop_left] at hnone
    exact hfirst (by rw [hnone, List.append_nil])
  next => exact hpieces first List.mem_cons_self hnone

end Reader

/-- Bytes that do not begin with the mark are the text as they are. -/
theorem text_of_unmarked (hpieces : ∀ piece ∈ pieces, piece ≠ [])
    (h : ¬ byteOrderMark <+: pieces.flatten) : textOf pieces = pieces.flatten := by
  cases pieces with
  | nil => rfl
  | cons first pieces =>
      rw [List.flatten_cons] at h ⊢
      have hmark : ¬ byteOrderMark <+: first := fun hmark =>
        h (hmark.trans (List.prefix_append _ _))
      have hfirst : first ≠ byteOrderMark := by
        rintro rfl
        exact hmark (List.prefix_refl _)
      rw [textOf, if_neg hfirst, if_neg fun hprefix => hmark (List.isPrefixOf_iff_prefix.mp hprefix)]

/-! ## The answers -/

namespace RecordReader

variable {r s : RecordReader} {bytes : Nat} {gathered : Found × Reader × List Serving}

/-- A reader that has reported the end goes on to do so. -/
theorem read_many_of_eof (h : r.read.1 = .error .eof) (k : Nat) :
    (r.readMany k).1 = List.replicate k (.error .eof) := by
  cases k with
  | zero => rfl
  | succ k =>
      have hended : r.read.2.csv.ended = true := by
        generalize hdata : r.csv.nextData r.input = found
        obtain ⟨found, csv, input⟩ := found
        cases found with
        | eof =>
            simp only [read, hdata]
            exact Reader.ended_of_next_data hdata
        | fault message =>
            simp only [read, hdata] at h
            cases h
        | record record =>
            have haccounts := (read_of_record hdata).1
            rw [h] at haccounts
            cases haccounts
      show r.read.1 :: (r.read.2.readMany k).1 = _
      rw [h, read_many_of_ended hended]
      rfl

/-- These are the answers of a reader up to the end of its source, which it reports from then on. -/
def Gives (r : RecordReader) (answers : List ReadResult) : Prop :=
  ∀ k, (r.readMany (answers.length + k)).1 = answers ++ List.replicate k (.error .eof)

/-- A reader that reports the end has nothing to answer before it. -/
theorem gives_nothing (h : r.read.1 = .error .eof) : r.Gives [] := fun k => by
  rw [List.length_nil, Nat.zero_add]
  exact read_many_of_eof h k

/-- The answers of a reader are its next answer and the answers after it. -/
theorem Gives.of_rest {answers : List ReadResult} (h : r.read.2.Gives answers) :
    r.Gives (r.read.1 :: answers) := fun k => by
  rw [List.length_cons, Nat.add_right_comm]
  show r.read.1 :: (r.read.2.readMany (answers.length + k)).1 = _
  rw [h k]
  rfl

/-- A reader that drains its source answers with records, and then reports the end from now on. -/
theorem Drains.read_many (h : r.Drains bytes) :
    ∃ answers : List ReadResult, (∀ answer ∈ answers, accountsFor answer = true) ∧
      r.Gives answers := by
  induction h with
  | eof hend => exact ⟨[], nofun, gives_nothing hend⟩
  | record hrecord hrest ih =>
      obtain ⟨answers, haccounts, hanswers⟩ := ih
      exact ⟨_ :: answers, List.forall_mem_cons.mpr ⟨hrecord, haccounts⟩, hanswers.of_rest⟩

/-- Two record readers that stand at the same place before the same bytes, wherever these are
cut. -/
structure SameAhead (r s : RecordReader) : Prop where
  sourceName : r.sourceName = s.sourceName
  expected : r.expected = s.expected
  charged : r.charged = s.charged
  ahead : ∃ gathered, r.csv.Gathers r.input gathered ∧ s.csv.Gathers s.input gathered

/-- Record readers at the same place that find the same give the same answer, and are at the same
place behind it. -/
theorem same_of_found (hname : r.sourceName = s.sourceName) (hexpected : r.expected = s.expected)
    (hcharged : r.charged = s.charged) (hposition : r.csv.position = s.csv.position)
    (h : Reader.FindsSame (r.csv.nextData r.input) gathered)
    (hother : Reader.FindsSame (s.csv.nextData s.input) gathered) :
    r.read.1 = s.read.1 ∧ r.read.2.SameAhead s.read.2 := by
  generalize hr : r.csv.nextData r.input = result at h
  generalize hs : s.csv.nextData s.input = other at hother
  obtain @⟨found, csv, whole, input, hgathers⟩ := h
  obtain @⟨_, last, _, left, hothers⟩ := hother
  have hafter : csv.position = last.position := hgathers.position_eq.trans hothers.position_eq.symm
  cases found with
  | eof =>
      have hread : r.read = (.error .eof, { r with csv, input }) := by simp only [read, hr]
      have hsame : s.read = (.error .eof, { s with csv := last, input := left }) := by
        simp only [read, hs]
      rw [hread, hsame]
      exact ⟨rfl, hname, hexpected, hcharged, whole, hgathers, hothers⟩
  | fault message =>
      simp only [read, hr, hs, hname, true_and]
      exact ⟨rfl, hexpected, congrArg Position.byte hafter, whole, hgathers, hothers⟩
  | record record =>
      simp only [read, hr, hs, hexpected, hcharged, hposition, hafter]
      split
      · exact ⟨rfl, hname, rfl, rfl, whole, hgathers, hothers⟩
      · split <;> exact ⟨rfl, hname, rfl, rfl, whole, hgathers, hothers⟩

/-- Record readers at the same place give the same answer, and are at the same place behind it. -/
theorem SameAhead.read (h : r.SameAhead s) : r.read.1 = s.read.1 ∧ r.read.2.SameAhead s.read.2 := by
  obtain ⟨hname, hexpected, hcharged, whole, hgathers, hothers⟩ := h
  exact same_of_found hname hexpected hcharged
    (hgathers.position_eq.trans hothers.position_eq.symm) hgathers.same_data hothers.same_data

/-- Readers that give the same first answer and are at the same place behind it give the same
answers. -/
theorem read_many_of_same (h : r.read.1 = s.read.1 ∧ r.read.2.SameAhead s.read.2) (k : Nat) :
    (r.readMany k).1 = (s.readMany k).1 := by
  induction k generalizing r s with
  | zero => rfl
  | succ k ih =>
      show r.read.1 :: (r.read.2.readMany k).1 = s.read.1 :: (s.read.2.readMany k).1
      rw [h.1, ih h.2.read]

/-- What the first request finds in pieces is what it finds in the text with the mark before it
skipped. -/
theorem found_of_first (config : CsvConfig) {first : List UInt8} (hfirst : first ≠ byteOrderMark)
    (hpieces : ∀ piece ∈ first :: pieces, piece ≠ []) :
    Reader.FindsSame ((Reader.of config).nextData ((first :: pieces).map .bytes))
      (((Reader.opened config first).gather pieces.flatten).nextData []) := by
  have hgathers : (Reader.opened config first).Gathers (pieces.map .bytes)
      ((Reader.opened config first).gather pieces.flatten) := by
    refine .intro pieces ?_ fun piece hpiece => hpieces piece (List.mem_cons_of_mem _ hpiece)
    unfold Reader.opened
    split <;> rfl
  have hheader : (Reader.opened config first).header = (Reader.of config).header := by
    unfold Reader.opened
    split <;> rfl
  have hdata : (Reader.of config).nextData ((first :: pieces).map .bytes) =
      (Reader.opened config first).nextData (pieces.map .bytes) := by
    rw [Reader.nextData, Reader.nextData, hheader, List.map_cons,
      Reader.next_of_opened config hfirst (hpieces first List.mem_cons_self)]
  rw [hdata]
  exact hgathers.same_data

/-- A first piece that is nothing but the mark ends the source. -/
theorem read_many_of_mark (sourceName : String) (config : CsvConfig) (pieces : List (List UInt8))
    (k : Nat) :
    ((RecordReader.of sourceName config ((byteOrderMark :: pieces).map .bytes)).readMany k).1 =
      List.replicate k (.error .eof) := by
  obtain ⟨-, after, hnext, hended⟩ := Reader.next_of_nothing config (pieces.map .bytes)
  obtain ⟨last, hdata, -⟩ := Reader.next_data_of_end hnext hended
  exact read_many_of_eof (read_of_eof hdata) k

/-- A record reader gives the same answers for two ways of cutting the same bytes, if they leave the
same text. -/
theorem read_many_of_pieces (sourceName : String) (config : CsvConfig)
    (hpieces : ∀ piece ∈ pieces, piece ≠ []) (hothers : ∀ piece ∈ others, piece ≠ [])
    (hbytes : pieces.flatten = others.flatten) (htext : textOf pieces = textOf others) (k : Nat) :
    ((RecordReader.of sourceName config (pieces.map .bytes)).readMany k).1 =
      ((RecordReader.of sourceName config (others.map .bytes)).readMany k).1 := by
  have hempty {cut : List (List UInt8)} (hcut : ∀ piece ∈ cut, piece ≠ [])
      (hnone : cut.flatten = []) : cut = [] :=
    List.eq_nil_iff_forall_not_mem.mpr fun piece hpiece =>
      hcut piece hpiece (List.flatten_eq_nil_iff.mp hnone piece hpiece)
  cases pieces with
  | nil => rw [hempty hothers hbytes.symm]
  | cons first pieces =>
      cases others with
      | nil => cases hempty hpieces hbytes
      | cons other others =>
          by_cases hfirst : first = byteOrderMark
          · -- Nothing is left of the source, and so it is for the other one.
            subst hfirst
            have hother : other = byteOrderMark :=
              Reader.first_of_no_text hothers (by rw [← htext, textOf, if_pos rfl])
            rw [hother, read_many_of_mark, read_many_of_mark]
          · have hother : other ≠ byteOrderMark := by
              rintro rfl
              exact hfirst (Reader.first_of_no_text hpieces (by rw [htext, textOf, if_pos rfl]))
            have hgathered : (Reader.opened config first).gather pieces.flatten =
                (Reader.opened config other).gather others.flatten := by
              rw [Reader.gather_opened config hfirst, Reader.gather_opened config hother, htext,
                hbytes]
            have hfound := found_of_first config hfirst hpieces
            rw [hgathered] at hfound
            have hsame := same_of_found
              (r := .of sourceName config ((first :: pieces).map .bytes))
              (s := .of sourceName config ((other :: others).map .bytes))
              rfl rfl rfl rfl hfound (found_of_first config hother hothers)
            exact read_many_of_same hsame k

/-- Where a source cuts its bytes makes no difference to the answers of a record reader, unless the
bytes begin with a mark and one way of cutting them leaves another text than the other. The answers
are records, given or skipped, and then the end from now on. -/
theorem answers_of_pieces (sourceName : String) (config : CsvConfig)
    (hpieces : ∀ piece ∈ pieces, piece ≠ []) (hothers : ∀ piece ∈ others, piece ≠ [])
    (hbytes : pieces.flatten = others.flatten)
    (hmark : byteOrderMark <+: pieces.flatten → textOf pieces = textOf others) :
    (∀ k, ((RecordReader.of sourceName config (pieces.map .bytes)).readMany k).1 =
        ((RecordReader.of sourceName config (others.map .bytes)).readMany k).1) ∧
      ∃ answers : List ReadResult, (∀ answer ∈ answers, accountsFor answer = true) ∧
        ∀ k, ((RecordReader.of sourceName config (pieces.map .bytes)).readMany
          (answers.length + k)).1 = answers ++ List.replicate k (.error .eof) := by
  have htext : textOf pieces = textOf others := by
    by_cases h : byteOrderMark <+: pieces.flatten
    · exact hmark h
    · rw [text_of_unmarked hpieces h, text_of_unmarked hothers (hbytes ▸ h), hbytes]
  obtain ⟨bytes, hdrains, -⟩ := drains_of_config sourceName config hpieces
  exact ⟨read_many_of_pieces sourceName config hpieces hothers hbytes htext, hdrains.read_many⟩

namespace Cut

/-- Two lines behind a mark, the first with a quoted field and a carriage return. -/
def whole : List UInt8 :=
  byteOrderMark ++ [34, 0xC3, 0xA9, 34, 44, 98, 13, 10, 50, 44, 99, 10]

/-- The lines cut within a character, which is between quotes, and within the end of a line. -/
def within : List (List UInt8) :=
  [byteOrderMark ++ [34, 0xC3], [0xA9, 34, 44, 98, 13], [10, 50, 44, 99, 10]]

/-- The lines cut behind the mark. -/
def behindMark : List (List UInt8) := [byteOrderMark, whole.drop 3]

end Cut

/-- The lines that are cut within a character and within a line's end are read as they are. -/
theorem answers_of_cut_lines :
    byteOrderMark <+: Cut.within.flatten ∧
      ((RecordReader.of "memory" {} (Cut.within.map .bytes)).readMany 3).1 =
        [.ok (10, ["é", "b"]), .ok (5, ["2", "c"]), .error .eof] := by
  have hmark : byteOrderMark <+: Cut.within.flatten → textOf Cut.within = textOf [Cut.whole] := by
    decide +kernel
  have hwithin : ∀ piece ∈ Cut.within, piece ≠ [] := by decide +kernel
  have hwhole : ∀ piece ∈ [Cut.whole], piece ≠ [] := by decide +kernel
  obtain ⟨hsame, -⟩ := answers_of_pieces "memory" {} hwithin hwhole (by decide +kernel) hmark
  refine ⟨by decide +kernel, (hsame 3).trans ?_⟩
  decide +kernel

/-- It is not so that the answers never depend on where a source cuts its bytes: behind a mark that
is a piece of its own, nothing is read. -/
theorem not_all_cuts_alike :
    ¬ ∀ (sourceName : String) (config : CsvConfig) (pieces others : List (List UInt8)),
      (∀ piece ∈ pieces, piece ≠ []) → (∀ piece ∈ others, piece ≠ []) →
        pieces.flatten = others.flatten →
          ∀ k, ((RecordReader.of sourceName config (pieces.map .bytes)).readMany k).1 =
            ((RecordReader.of sourceName config (others.map .bytes)).readMany k).1 := by
  intro h
  have hsame := h "memory" {} Cut.behindMark [Cut.whole] (by decide +kernel) (by decide +kernel)
    (by decide +kernel) 1
  revert hsame
  decide +kernel

end RecordReader

end BulkLoad.Csv
