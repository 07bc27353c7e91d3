import BulkLoad.Csv.Outcomes

/-!
# Reading in pieces

Where a source cuts its content makes no difference to the records. A reader `StandsBefore` a text
if what is left in its buffer and the pieces to come are that text; `StandsBefore.next_of_some` and
`StandsBefore.next_of_none` say that it finds what `firstRecord` finds in the text, and stands
before the rest. The position and the length of the text before which a reader stands add up to the
same total all the time.
-/

namespace BulkLoad.Csv

variable {dialect : Dialect} {d next : Draft} {bytes more rest : List UInt8} {record : RawRecord}

/-! ## The machine -/

/-- Bytes that leave a record incomplete are followed by those that come after them. -/
theorem feed_append_of_partly (h : feed dialect d bytes = .partly next) :
    feed dialect d (bytes ++ more) = feed dialect next more := by
  induction bytes generalizing d with
  | nil =>
      cases h
      rfl
  | cons b bytes ih =>
      rw [List.cons_append, feed]
      rw [feed] at h
      split at h
      next after hstep => exact ih h
      next => cases h

/-- A record that is complete leaves what comes after it. -/
theorem feed_append_of_whole {mode : Mode} (h : feed dialect d bytes = .whole record mode rest) :
    feed dialect d (bytes ++ more) = .whole record mode (rest ++ more) := by
  induction bytes generalizing d with
  | nil => cases h
  | cons b bytes ih =>
      rw [List.cons_append, feed]
      rw [feed] at h
      split at h
      next after hstep => exact ih h
      next hstep =>
        cases h
        rfl

/-- The first record of a text, with the mode and the text after it. -/
def firstRecord (dialect : Dialect) (mode : Mode) (text : List UInt8) :
    Option (RawRecord × Mode × List UInt8) :=
  match feed dialect ⟨mode, [], []⟩ text with
  | .partly d => d.finish.map fun record => (record, .recordStart, [])
  | .whole record next rest => some (record, next, rest)

/-- Nothing is in an empty text. -/
theorem first_record_nil (dialect : Dialect) : firstRecord dialect .recordStart [] = none := rfl

/-- A record leaves no more bytes than there were. -/
theorem length_rest_le {mode after : Mode} {text : List UInt8}
    (h : firstRecord dialect mode text = some (record, after, rest)) :
    rest.length ≤ text.length := by
  unfold firstRecord at h
  split at h
  next d hfeed =>
    obtain ⟨found, hfinish, hfound⟩ := Option.map_eq_some_iff.mp h
    cases hfound
    exact Nat.zero_le _
  next hfeed =>
    cases h
    exact Nat.le_of_lt (length_rest_lt hfeed)

/-! ## The reader -/

/-- A reader that has begun and stands before a text: a part of the text is in its buffer, and the
others are the pieces to come. -/
structure Reader.StandsBefore (r : Reader) (text : List UInt8) (pieces : List (List UInt8))
    (total : Nat) : Prop where
  begun : r.begun = true
  running : r.ended = false
  split : r.buffer ++ pieces.flatten = text
  nonempty : ∀ piece ∈ pieces, piece ≠ []
  position : r.position.byte + text.length = total

/-- A reader of the same format, with the header dropped or not. -/
structure Reader.SameFormat (after r : Reader) : Prop where
  dialect : after.dialect = r.dialect
  header : after.header = r.header

namespace Reader

variable {r : Reader} {mode : Mode} {text : List UInt8} {pieces : List (List UInt8)} {total : Nat}

/-- The bytes before the rest, and the rest, are all of them. -/
theorem length_taken_before (h : rest.length ≤ bytes.length) :
    (takenBefore bytes rest).length + rest.length = bytes.length := by
  rw [takenBefore, List.length_take]
  omega

/-- The reader after a record that was complete within its buffer. -/
def complete (r : Reader) (mode : Mode) (rest : List UInt8) : Reader :=
  { r with
    buffer := rest
    mode
    position := { r.position.advance (takenBefore r.buffer rest) with
      record := r.position.record + 1 } }

/-- The reader with what is in its buffer used up and another piece in its place. -/
def refill (r : Reader) (piece : List UInt8) : Reader :=
  { r with buffer := piece, begun := true, position := r.position.advance r.buffer }

/-- A record that is complete within the buffer takes nothing from the source. -/
theorem pull_complete (hfeed : feed r.dialect d r.buffer = .whole record mode rest)
    (input : List Serving) : r.pull d input = (.record record, r.complete mode rest, input) := by
  rw [pull.eq_def]
  simp only [hfeed]
  rfl

/-- A buffer that does not complete a record is followed by the next piece. -/
theorem pull_refill {piece : List UInt8} (hbegun : r.begun = true) (hpiece : piece ≠ [])
    (hfeed : feed r.dialect d r.buffer = .partly next) (input : List Serving) :
    r.pull d (.bytes piece :: input) = (r.refill piece).pull next input := by
  rw [pull.eq_def]
  simp [hfeed, hbegun, hpiece, refill]

/-- With another piece the reader stands before the rest of the text. -/
theorem StandsBefore.refill {piece : List UInt8}
    (h : r.StandsBefore text (piece :: pieces) total) :
    (r.refill piece).StandsBefore (piece ++ pieces.flatten) pieces total where
  begun := rfl
  running := h.running
  split := rfl
  nonempty := fun other hother => h.nonempty other (List.mem_cons_of_mem _ hother)
  position := by
    have hposition := h.position
    rw [← h.split] at hposition
    simp only [Reader.refill, Position.advance, List.flatten_cons, List.length_append]
      at hposition ⊢
    omega

/-- Whatever completes the first record of a text, the reader stands before the rest. -/
theorem pull_of_whole (hbefore : r.StandsBefore text pieces total)
    (hfeed : feed r.dialect d text = .whole record mode rest) (input : List Serving) :
    ∃ (after : Reader) (later : List (List UInt8)),
      r.pull d (pieces.map .bytes ++ input) = (.record record, after, later.map .bytes ++ input) ∧
        after.StandsBefore rest later total ∧ after.SameFormat r ∧ after.mode = mode := by
  induction pieces generalizing r d text with
  | nil =>
      obtain ⟨hbegun, hrunning, rfl, -, hposition⟩ := hbefore
      rw [List.flatten_nil, List.append_nil] at hfeed hposition
      have hlength := length_taken_before (Nat.le_of_lt (length_rest_lt hfeed))
      refine ⟨_, [], pull_complete hfeed input, ⟨hbegun, hrunning, ?_, nofun, ?_⟩, ⟨rfl, rfl⟩, rfl⟩
      · exact List.append_nil rest
      · simp only [complete, Position.advance]
        omega
  | cons piece pieces ih =>
      cases hbuffer : feed r.dialect d r.buffer with
      | whole found after left =>
          -- The record is complete within the buffer, and no piece is taken.
          obtain ⟨hbegun, hrunning, rfl, hpieces, hposition⟩ := hbefore
          rw [feed_append_of_whole hbuffer] at hfeed
          obtain ⟨rfl, rfl, rfl⟩ := Fed.whole.inj hfeed
          have hlength := length_taken_before (Nat.le_of_lt (length_rest_lt hbuffer))
          refine ⟨_, piece :: pieces, pull_complete hbuffer _, ⟨hbegun, hrunning, rfl, hpieces, ?_⟩,
            ⟨rfl, rfl⟩, rfl⟩
          rw [List.length_append] at hposition ⊢
          simp only [complete, Position.advance]
          omega
      | partly next =>
          -- The record goes on in the next piece, which the induction then finds in the buffer.
          have hpiece := hbefore.nonempty piece List.mem_cons_self
          have hrefill : feed (r.refill piece).dialect next (piece ++ pieces.flatten) =
              .whole record mode rest := by
            rw [← hfeed, ← hbefore.split, List.flatten_cons, feed_append_of_partly hbuffer]
            rfl
          rw [List.map_cons, List.cons_append, pull_refill hbefore.begun hpiece hbuffer]
          obtain ⟨after, later, hpull, hafter, hformat, hmode⟩ := ih hbefore.refill hrefill
          exact ⟨after, later, hpull, hafter, ⟨hformat.dialect, hformat.header⟩, hmode⟩

/-- Once a text is used up without completing a record, it depends on what comes after it. -/
theorem pull_of_partly (hbefore : r.StandsBefore text pieces total)
    (hfeed : feed r.dialect d text = .partly next) (input : List Serving) :
    ∃ (last : Reader) (before : Draft),
      r.pull d (pieces.map .bytes ++ input) = last.pull before input ∧
        feed last.dialect before last.buffer = .partly next ∧
        last.StandsBefore last.buffer [] total ∧ last.SameFormat r := by
  induction pieces generalizing r d text with
  | nil =>
      have hsplit := hbefore.split
      rw [List.flatten_nil, List.append_nil] at hsplit
      subst hsplit
      exact ⟨r, d, rfl, hfeed, hbefore, rfl, rfl⟩
  | cons piece pieces ih =>
      have hsplit := hbefore.split
      cases hbuffer : feed r.dialect d r.buffer with
      | whole found after left =>
          rw [← hsplit, feed_append_of_whole hbuffer] at hfeed
          cases hfeed
      | partly middle =>
          have hpiece := hbefore.nonempty piece List.mem_cons_self
          have hrefill : feed (r.refill piece).dialect middle (piece ++ pieces.flatten) =
              .partly next := by
            rw [← hfeed, ← hsplit, List.flatten_cons, feed_append_of_partly hbuffer]
            rfl
          rw [List.map_cons, List.cons_append, pull_refill hbefore.begun hpiece hbuffer]
          obtain ⟨last, before, hpull, hlast, hstands, hformat⟩ := ih hbefore.refill hrefill
          exact ⟨last, before, hpull, hlast, hstands, hformat.dialect, hformat.header⟩

/-- The end of the input decides about a record that is not complete. -/
theorem pull_end (hfeed : feed r.dialect d r.buffer = .partly next) :
    r.pull d [] = (((r.refill []).atEnd next).1, ((r.refill []).atEnd next).2, []) := by
  rw [pull.eq_def]
  simp only [hfeed]
  rfl

/-- A failure of the source ends the records, whatever is in the buffer. -/
theorem pull_fault (hfeed : feed r.dialect d r.buffer = .partly next) (message : String)
    (input : List Serving) :
    ∃ after : Reader, r.pull d (.fault message :: input) = (.fault message, after, input) ∧
      after.ended = true := by
  rw [pull.eq_def]
  simp only [hfeed]
  exact ⟨_, rfl, rfl⟩

/-- A reader finds the first record of the text before which it stands. -/
theorem StandsBefore.next_of_some (hbefore : r.StandsBefore text pieces total)
    (hfirst : firstRecord r.dialect r.mode text = some (record, mode, rest)) :
    ∃ (after : Reader) (later : List (List UInt8)),
      r.next (pieces.map .bytes) = (.record record, after, later.map .bytes) ∧
        after.StandsBefore rest later total ∧ after.SameFormat r ∧ after.mode = mode := by
  rw [Reader.next, hbefore.running, if_neg Bool.false_ne_true]
  unfold firstRecord at hfirst
  split at hfirst
  next d hfeed =>
    obtain ⟨found, hfinish, hfound⟩ := Option.map_eq_some_iff.mp hfirst
    cases hfound
    -- The text stops within the record, which the end of the input completes.
    obtain ⟨last, before, hpull, hlast, hstands, hformat⟩ := pull_of_partly hbefore hfeed []
    rw [List.append_nil] at hpull
    rw [hpull, pull_end hlast]
    simp only [atEnd, hfinish]
    refine ⟨_, [], rfl, ⟨rfl, hstands.running, rfl, nofun, ?_⟩, ⟨hformat.dialect, hformat.header⟩,
      rfl⟩
    have hposition := hstands.position
    simp only [Reader.refill, Position.advance, List.length_nil]
    omega
  next found after left hfeed =>
    cases hfirst
    obtain ⟨after, later, hpull, hafter⟩ := pull_of_whole hbefore hfeed []
    rw [List.append_nil, List.append_nil] at hpull
    exact ⟨after, later, hpull, hafter⟩

/-- A reader before a text without records finds the end. -/
theorem StandsBefore.next_of_none (hbefore : r.StandsBefore text pieces total)
    (hfirst : firstRecord r.dialect r.mode text = none) :
    ∃ after : Reader, r.next (pieces.map .bytes) = (.eof, after, []) ∧ after.ended = true := by
  rw [Reader.next, hbefore.running, if_neg Bool.false_ne_true]
  unfold firstRecord at hfirst
  split at hfirst
  next d hfeed =>
    obtain ⟨last, before, hpull, hlast, -⟩ := pull_of_partly hbefore hfeed []
    rw [List.append_nil] at hpull
    rw [hpull, pull_end hlast]
    simp only [atEnd, Option.map_eq_none_iff.mp hfirst]
    exact ⟨_, rfl, rfl⟩
  next => cases hfirst

/-- A reader that has ended finds nothing. -/
theorem next_of_ended (hended : r.ended = true) (input : List Serving) :
    r.next input = (.eof, r, input) := by
  rw [Reader.next, if_pos hended]

end Reader

end BulkLoad.Csv
