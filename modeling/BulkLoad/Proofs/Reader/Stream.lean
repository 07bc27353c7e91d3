import BulkLoad.Reader.Stream

/-!
# A failure among the records

What a `StreamReader` makes of records that end in a failure. `gather` cuts outcomes that give or
skip records into full batches and the beginning of another. If that beginning is empty the failure
is the answer after the full batches; otherwise the beginning is, the failure is only logged, and
reading goes on with what the record reader answers after it.
-/

namespace BulkLoad

/-- Whether collecting goes on after an outcome, which gives a record or skips one. -/
def RecordOutcome.goesOn : RecordOutcome → Bool
  | .record _ _ | .error (.skip _ _) => true
  | .error _ | .panicked _ => false

/-- The record that an outcome gives. -/
def RecordOutcome.record? : RecordOutcome → Option Record
  | .record _ fields => some fields
  | .error _ | .panicked _ => none

/-- Whether there is a batch. -/
def BatchOutcome.isBatch : BatchOutcome → Bool
  | .batch _ _ => true
  | .error _ | .panicked _ => false

namespace StreamReader

/-- What is collected after one more outcome. -/
def Collected.add (c : Collected) : RecordOutcome → Collected
  | .record bytes record => ⟨c.bytes + .ofNat bytes, record :: c.latest⟩
  | .error (.skip bytes _) => { c with bytes := c.bytes + .ofNat bytes }
  | .error _ | .panicked _ => c

/-- Whether nothing was consumed. -/
def Collected.isEmpty (c : Collected) : Bool := c.latest.isEmpty && c.bytes == 0

/-- The full batches that outcomes make up together with what was collected before them, and what
is collected of the next batch. -/
def gather (batch : Nat) (c : Collected) : List RecordOutcome → List Collected × Collected
  | [] => ([], c)
  | outcome :: later =>
      if (c.add outcome).latest.length = batch then
        (c.add outcome :: (gather batch {} later).1, (gather batch {} later).2)
      else gather batch (c.add outcome) later

/-- The answer with a batch: the collected records, converted, or why they could not be. -/
def converted (convert : Convertor) (c : Collected) : BatchOutcome :=
  match convert.convertAll c.raw with
  | .records records => .batch c.bytes.toNat records
  | .failed error => .error (.convert error)
  | .panicked message => .error (.aborted (panicMessage message))

section

variable {sourceName : String} {convert : Convertor} {batch wanted : Nat} {c last : Collected}
  {full : List Collected} {before later : List RecordOutcome} {error : ReadError}

/-- The records among the outcomes after one more. -/
theorem records_cons (outcome : RecordOutcome) (later : List RecordOutcome) :
    (outcome :: later).filterMap RecordOutcome.record? =
      outcome.record?.toList ++ later.filterMap RecordOutcome.record? := by
  cases hrecord : outcome.record? <;> simp [hrecord]

/-- The records that are collected after one more outcome. -/
theorem raw_add (c : Collected) (outcome : RecordOutcome) :
    (c.add outcome).raw = c.raw ++ outcome.record?.toList := by
  cases outcome with
  | record => simp [Collected.add, Collected.raw, RecordOutcome.record?]
  | error error =>
      cases error <;> simp [Collected.add, Collected.raw, RecordOutcome.record?]
  | panicked => simp [Collected.add, Collected.raw, RecordOutcome.record?]

/-- Gathering keeps the records and their order. -/
theorem raw_gather (batch : Nat) (c : Collected) (before : List RecordOutcome) :
    ((gather batch c before).1.map Collected.raw).flatten ++ (gather batch c before).2.raw =
      c.raw ++ before.filterMap RecordOutcome.record? := by
  induction before generalizing c with
  | nil => simp [gather]
  | cons outcome later ih =>
      rw [records_cons, ← List.append_assoc, ← raw_add, gather]
      split
      · rw [List.map_cons, List.flatten_cons, List.append_assoc, ih]
        rfl
      · exact ih (c.add outcome)

/-- One outcome that gives or skips a record is collected, and collecting goes on. -/
theorem collect_add (sourceName : String) {outcome : RecordOutcome} (hgoes : outcome.goesOn = true)
    (hwanted : c.latest.length + (wanted + 1) = batch) (upcoming : List RecordOutcome) :
    ∃ (left : Nat) (logs : List LogLine), (c.add outcome).latest.length + left = batch ∧
      collect sourceName c (wanted + 1) (outcome :: upcoming) =
        ((collect sourceName (c.add outcome) left upcoming).1,
          logs ++ (collect sourceName (c.add outcome) left upcoming).2.1,
          (collect sourceName (c.add outcome) left upcoming).2.2) := by
  cases outcome with
  | record bytes fields =>
      refine ⟨wanted, [], ?_, rfl⟩
      simp only [Collected.add, List.length_cons]
      omega
  | error error =>
      cases error with
      | skip bytes reason =>
          -- As many records are wanted as before.
          exact ⟨wanted + 1, [skipLine sourceName reason], hwanted, rfl⟩
      | eof | failed | source | convert | aborted => cases hgoes
  | panicked => cases hgoes

/-- Collecting a batch that becomes full leaves the outcomes of the others. -/
theorem collect_full (hwanted : c.latest.length + wanted = batch) (hpos : 0 < wanted)
    (hbefore : ∀ outcome ∈ before, outcome.goesOn = true) {first : Collected}
    (hgather : gather batch c before = (first :: full, last)) (tail : List RecordOutcome) :
    ∃ (logs : List LogLine) (rest : List RecordOutcome),
      collect sourceName c wanted (before ++ tail) = (.full first, logs, rest ++ tail) ∧
        gather batch {} rest = (full, last) ∧ ∀ outcome ∈ rest, outcome.goesOn = true := by
  induction before generalizing c wanted with
  | nil => cases hgather
  | cons outcome later ih =>
      obtain ⟨wanted, rfl⟩ := Nat.exists_eq_add_one.mpr hpos
      obtain ⟨left, logs, hleft, hcollect⟩ :=
        collect_add sourceName (hbefore outcome List.mem_cons_self) hwanted (later ++ tail)
      have hlater : ∀ outcome ∈ later, outcome.goesOn = true := fun other hother =>
        hbefore other (List.mem_cons_of_mem _ hother)
      rw [gather] at hgather
      rw [List.cons_append, hcollect]
      split at hgather
      next hfull =>
        cases hgather
        obtain rfl : left = 0 := by omega
        exact ⟨logs, later, by simp only [collect, List.append_nil], rfl, hlater⟩
      next hmore =>
        obtain ⟨others, rest, hothers, hrest⟩ := ih hleft (by omega) hlater hgather
        rw [hothers]
        exact ⟨logs ++ others, rest, rfl, hrest⟩

/-- Collecting a batch that does not become full ends with the failure. -/
theorem collect_failed (hwanted : c.latest.length + wanted = batch) (hpos : 0 < wanted)
    (hbefore : ∀ outcome ∈ before, outcome.goesOn = true) (hskip : error.isSkip = false)
    (hgather : gather batch c before = ([], last)) (after : List RecordOutcome) :
    ∃ logs : List LogLine,
      collect sourceName c wanted (before ++ .error error :: after) =
        ((interrupt sourceName last error).1,
          logs ++ (interrupt sourceName last error).2, after) := by
  induction before generalizing c wanted with
  | nil =>
      obtain ⟨wanted, rfl⟩ := Nat.exists_eq_add_one.mpr hpos
      cases hgather
      refine ⟨[], ?_⟩
      cases error with
      | skip => cases hskip
      | eof | failed | source | convert | aborted => rfl
  | cons outcome later ih =>
      obtain ⟨wanted, rfl⟩ := Nat.exists_eq_add_one.mpr hpos
      obtain ⟨left, logs, hleft, hcollect⟩ :=
        collect_add sourceName (hbefore outcome List.mem_cons_self) hwanted
          (later ++ .error error :: after)
      have hlater : ∀ outcome ∈ later, outcome.goesOn = true := fun other hother =>
        hbefore other (List.mem_cons_of_mem _ hother)
      rw [gather] at hgather
      rw [List.cons_append, hcollect]
      split at hgather
      next => cases hgather
      next hmore =>
        obtain ⟨others, hothers⟩ := ih hleft (by omega) hlater hgather
        rw [hothers]
        exact ⟨logs ++ others, by rw [List.append_assoc]⟩

/-- Collecting leaves the end of what the record reader was going to answer. -/
theorem collect_suffix (sourceName : String) (c : Collected) (wanted : Nat)
    (upcoming : List RecordOutcome) : (collect sourceName c wanted upcoming).2.2 <:+ upcoming := by
  induction upcoming generalizing c wanted with
  | nil => cases wanted <;> exact List.suffix_refl []
  | cons outcome later ih =>
      cases wanted with
      | zero => exact List.suffix_refl _
      | succ wanted =>
          have hlater : later <:+ outcome :: later := List.suffix_cons outcome later
          cases outcome with
          | record => exact (ih _ _).trans hlater
          | panicked => exact hlater
          | error error =>
              cases error with
              | skip => exact (ih _ _).trans hlater
              | eof | failed | source | convert | aborted => exact hlater

end

section

variable {r : StreamReader} {first last : Collected} {full : List Collected}
  {before after : List RecordOutcome} {error : ReadError} {m : Nat}

/-- Reading a full collection answers with it, and the others are still to come. -/
theorem read_collected {upcoming later : List RecordOutcome} {logs : List LogLine}
    (hsize : r.batch ≤ largestBatch) (hupcoming : r.upcoming = some upcoming)
    (hcollect : collect r.sourceName {} r.batch upcoming = (.full first, logs, later)) :
    r.readBatch.1 = converted r.convert first ∧ r.readBatch.2.1 = logs ∧
      ((converted r.convert first).isBatch = true →
        r.readBatch.2.2 = { r with upcoming := some later }) := by
  simp only [readBatch, hupcoming, if_neg (Nat.not_lt.mpr hsize), hcollect, outcome, converted]
  cases r.convert.convertAll first.raw with
  | records records => exact ⟨rfl, rfl, fun _ => rfl⟩
  | failed error => exact ⟨rfl, rfl, fun hbatch => absurd hbatch Bool.false_ne_true⟩
  | panicked message => exact ⟨rfl, rfl, fun hbatch => absurd hbatch Bool.false_ne_true⟩

/-- A batch that becomes full is read, and the others are still to come. -/
theorem read_full (hsize : r.batch ≤ largestBatch) (hpos : 0 < r.batch)
    (hbefore : ∀ outcome ∈ before, outcome.goesOn = true) {tail : List RecordOutcome}
    (hupcoming : r.upcoming = some (before ++ tail))
    (hgather : gather r.batch {} before = (first :: full, last)) :
    ∃ rest : List RecordOutcome, gather r.batch {} rest = (full, last) ∧
      (∀ outcome ∈ rest, outcome.goesOn = true) ∧ r.readBatch.1 = converted r.convert first ∧
      ((converted r.convert first).isBatch = true →
        r.readBatch.2.2 = { r with upcoming := some (rest ++ tail) }) := by
  obtain ⟨logs, rest, hcollect, hrest, hgoes⟩ :=
    collect_full (Nat.zero_add r.batch) hpos hbefore hgather tail
  obtain ⟨hanswer, -, hafter⟩ := read_collected hsize hupcoming hcollect
  exact ⟨rest, hrest, hgoes, hanswer, hafter⟩

/-- A failure before which nothing was consumed is the answer. -/
theorem read_refused (hsize : r.batch ≤ largestBatch) (hpos : 0 < r.batch)
    (hbefore : ∀ outcome ∈ before, outcome.goesOn = true) (hskip : error.isSkip = false)
    (hupcoming : r.upcoming = some (before ++ .error error :: after))
    (hgather : gather r.batch {} before = ([], last)) (hempty : last.isEmpty = true) :
    r.readBatch.1 = .error error := by
  obtain ⟨logs, hcollect⟩ :=
    collect_failed (Nat.zero_add r.batch) hpos hbefore hskip hgather after
  have hinterrupt : interrupt r.sourceName last error = (.refused error, []) := if_pos hempty
  rw [hinterrupt] at hcollect
  simp only [readBatch, hupcoming, if_neg (Nat.not_lt.mpr hsize), hcollect, outcome]

/-- A failure before which something was consumed is only logged. -/
theorem read_partial (hsize : r.batch ≤ largestBatch) (hpos : 0 < r.batch)
    (hbefore : ∀ outcome ∈ before, outcome.goesOn = true) (hskip : error.isSkip = false)
    (heof : error.isEof = false) (hupcoming : r.upcoming = some (before ++ .error error :: after))
    (hgather : gather r.batch {} before = ([], last)) (hsome : last.isEmpty = false) :
    r.readBatch.1 = converted r.convert last ∧
      partialLine r.sourceName error last.latest.length ∈ r.readBatch.2.1 ∧
      ((converted r.convert last).isBatch = true →
        r.readBatch.2.2 = { r with upcoming := some after }) := by
  obtain ⟨logs, hcollect⟩ :=
    collect_failed (Nat.zero_add r.batch) hpos hbefore hskip hgather after
  have hinterrupt : interrupt r.sourceName last error =
      (.full last, [partialLine r.sourceName error last.latest.length]) := by
    unfold interrupt
    rw [if_neg (by rw [← Collected.isEmpty, hsome]; exact Bool.false_ne_true), heof,
      if_neg Bool.false_ne_true]
  rw [hinterrupt] at hcollect
  obtain ⟨hanswer, hlogs, hafter⟩ := read_collected hsize hupcoming hcollect
  refine ⟨hanswer, ?_, hafter⟩
  rw [hlogs]
  exact List.mem_append_right _ List.mem_cons_self

/-- The first of several answers is that to the first request. -/
theorem read_many_succ (r : StreamReader) (m : Nat) :
    r.readMany (m + 1) =
      (r.readBatch.1 :: (r.readBatch.2.2.readMany m).1,
        r.readBatch.2.1 ++ (r.readBatch.2.2.readMany m).2.1,
        (r.readBatch.2.2.readMany m).2.2) := rfl

/-- A reader that is another one some requests later: what its record reader is going to answer, if
it has not been lost, is the end of what the other's was. -/
structure Follows (later r : StreamReader) : Prop where
  sourceName : later.sourceName = r.sourceName
  convert : later.convert = r.convert
  batch : later.batch = r.batch
  upcoming : ∀ left, later.upcoming = some left →
    ∃ upcoming, r.upcoming = some upcoming ∧ left <:+ upcoming

/-- A request leaves a reader that follows. -/
theorem follows_read_batch (r : StreamReader) : r.readBatch.2.2.Follows r := by
  unfold readBatch
  cases hupcoming : r.upcoming with
  | none =>
      refine ⟨rfl, rfl, rfl, ?_⟩
      intro left hleft
      rw [hupcoming] at hleft
      cases hleft
  | some upcoming =>
      have hsuffix := collect_suffix r.sourceName {} r.batch upcoming
      dsimp only
      split
      next => exact ⟨rfl, rfl, rfl, nofun⟩
      next =>
        split
        next => exact ⟨rfl, rfl, rfl, nofun⟩
        next =>
          refine ⟨rfl, rfl, rfl, ?_⟩
          intro left hleft
          cases hleft
          exact ⟨upcoming, hupcoming, hsuffix⟩

/-- Any number of requests leave a reader that follows. -/
theorem follows_read_many (r : StreamReader) (m : Nat) : (r.readMany m).2.2.Follows r := by
  induction m generalizing r with
  | zero => exact ⟨rfl, rfl, rfl, fun left hleft => ⟨left, hleft, List.suffix_refl left⟩⟩
  | succ m ih =>
      have hfirst := follows_read_batch r
      have hlater := ih r.readBatch.2.2
      refine ⟨hlater.sourceName.trans hfirst.sourceName, hlater.convert.trans hfirst.convert,
        hlater.batch.trans hfirst.batch, ?_⟩
      intro left hleft
      obtain ⟨middle, hmiddle, hsuffix⟩ := hlater.upcoming left hleft
      obtain ⟨upcoming, hupcoming, hwhole⟩ := hfirst.upcoming middle hmiddle
      exact ⟨upcoming, hupcoming, hsuffix.trans hwhole⟩

/-- Several requests are some of them and then the others. -/
theorem read_many_add (r : StreamReader) (k m : Nat) :
    r.readMany (k + m) =
      ((r.readMany k).1 ++ ((r.readMany k).2.2.readMany m).1,
        (r.readMany k).2.1 ++ ((r.readMany k).2.2.readMany m).2.1,
        ((r.readMany k).2.2.readMany m).2.2) := by
  induction k generalizing r with
  | zero => rw [Nat.zero_add]; rfl
  | succ k ih =>
      rw [Nat.add_right_comm, read_many_succ, ih, read_many_succ, List.cons_append,
        List.append_assoc]

/-- There are as many answers as requests. -/
theorem length_read_many (r : StreamReader) (m : Nat) : (r.readMany m).1.length = m := by
  induction m generalizing r with
  | zero => rfl
  | succ m ih => rw [read_many_succ, List.length_cons, ih]

/-- An answer that is no batch is the last one. -/
theorem last_of_not_batch {answer : BatchOutcome} {later : List BatchOutcome}
    (hbatches : ∀ other ∈ (answer :: later).dropLast, other.isBatch = true)
    (hanswer : answer.isBatch = false) : later = [] := by
  cases later with
  | nil => rfl
  | cons next later =>
      have hfirst := hbatches answer List.mem_cons_self
      rw [hanswer] at hfirst
      cases hfirst

/-- The answers of a reader whose record reader fails, as long as each but the last is a batch.
First come the full batches of the records before the failure. If nothing was consumed after them
the failure is the last answer. Otherwise the next answer is what was consumed, and unless that
could not be converted, reading goes on with what the record reader answers after the failure. -/
theorem read_many_failure (hsize : r.batch ≤ largestBatch) (hpos : 0 < r.batch)
    (hbefore : ∀ outcome ∈ before, outcome.goesOn = true) (hskip : error.isSkip = false)
    (heof : error.isEof = false) (hupcoming : r.upcoming = some (before ++ .error error :: after))
    (hgather : gather r.batch {} before = (full, last)) (hm : full.length < m)
    (hbatches : ∀ answer ∈ (r.readMany m).1.dropLast, answer.isBatch = true) :
    (last.isEmpty = true →
      (r.readMany m).1 = full.map (converted r.convert) ++ [.error error]) ∧
    (last.isEmpty = false →
      partialLine r.sourceName error last.latest.length ∈ (r.readMany m).2.1 ∧
        ∃ later : List BatchOutcome,
          (r.readMany m).1 =
            full.map (converted r.convert) ++ converted r.convert last :: later ∧
          later = if (converted r.convert last).isBatch then
            ({ r with upcoming := some after }.readMany (m - full.length - 1)).1 else []) := by
  induction full generalizing r before m with
  | nil =>
      obtain ⟨m, rfl⟩ := Nat.exists_eq_add_one.mpr hm
      rw [read_many_succ] at hbatches ⊢
      constructor
      · intro hempty
        have hanswer := read_refused hsize hpos hbefore hskip hupcoming hgather hempty
        rw [hanswer] at hbatches ⊢
        rw [last_of_not_batch hbatches rfl]
        rfl
      · intro hsome
        obtain ⟨hanswer, hlog, hafter⟩ :=
          read_partial hsize hpos hbefore hskip heof hupcoming hgather hsome
        rw [hanswer] at hbatches ⊢
        refine ⟨List.mem_append_left _ hlog, _, rfl, ?_⟩
        cases hbatch : (converted r.convert last).isBatch with
        | true => rw [hafter hbatch, if_pos rfl, List.length_nil, Nat.sub_zero, Nat.add_sub_cancel]
        | false => rw [if_neg Bool.false_ne_true, last_of_not_batch hbatches hbatch]
  | cons first full ih =>
      -- The first request takes a full batch, and the failure stays ahead of the others.
      obtain ⟨m, rfl⟩ := Nat.exists_eq_add_one.mpr (Nat.zero_lt_of_lt hm)
      have hm : full.length < m := Nat.lt_of_succ_lt_succ hm
      obtain ⟨rest, hrest, hgoes, hanswer, hafter⟩ :=
        read_full hsize hpos hbefore hupcoming hgather
      rw [read_many_succ, hanswer] at hbatches ⊢
      -- The failure is still to come, so the first answer is not the last and hence a batch.
      have hlater : (r.readBatch.2.2.readMany m).1 ≠ [] := fun hnil => by
        have hlength := length_read_many r.readBatch.2.2 m
        rw [hnil, List.length_nil] at hlength
        omega
      rw [List.dropLast_cons_of_ne_nil hlater, List.forall_mem_cons] at hbatches
      rw [hafter hbatches.1] at hbatches ⊢
      obtain ⟨hrefused, hpartial⟩ :=
        ih (r := { r with upcoming := some (rest ++ .error error :: after) }) hsize hpos hgoes rfl
          hrest hm hbatches.2
      refine ⟨?_, ?_⟩
      · intro hempty
        rw [List.map_cons, List.cons_append, ← hrefused hempty]
      · intro hsome
        obtain ⟨hlog, later, hanswers, hlater⟩ := hpartial hsome
        refine ⟨List.mem_append_right _ hlog, later, ?_, ?_⟩
        · rw [List.map_cons, List.cons_append, ← hanswers]
        · rw [hlater, List.length_cons, Nat.add_sub_add_right]

/-- A batch that is too large cannot even be begun. -/
theorem read_too_large {upcoming : List RecordOutcome} (hlarge : largestBatch < r.batch)
    (hupcoming : r.upcoming = some upcoming) :
    r.readBatch.1 = .error (.aborted (panicMessage "capacity overflow")) := by
  simp only [readBatch, hupcoming, if_pos hlarge]

/-- A record reader that answers with nothing but the end leaves no batch. -/
theorem read_end (hsize : r.batch ≤ largestBatch) (hpos : 0 < r.batch)
    (hupcoming : r.upcoming = some after) (hafter : ∀ outcome ∈ after, outcome = .error .eof) :
    r.readBatch.1 = .error .eof := by
  obtain ⟨wanted, hwanted⟩ := Nat.exists_eq_add_one.mpr hpos
  have hcollect : ∃ later : List RecordOutcome,
      collect r.sourceName {} r.batch after = (.refused .eof, [], later) := by
    rw [hwanted]
    cases after with
    | nil => exact ⟨[], rfl⟩
    | cons outcome later =>
        rw [hafter outcome List.mem_cons_self]
        exact ⟨later, rfl⟩
  obtain ⟨later, hcollect⟩ := hcollect
  simp only [readBatch, hupcoming, if_neg (Nat.not_lt.mpr hsize), hcollect, outcome]

/-- Converted records are a batch, or an error other than the end. -/
theorem converted_cases (convert : Convertor) (c : Collected) :
    (converted convert c).isBatch = true ∨
      ∃ error : ReadError, converted convert c = .error error ∧ error.isEof = false := by
  unfold converted
  cases convert.convertAll c.raw with
  | records => exact .inl rfl
  | failed error => exact .inr ⟨_, rfl, rfl⟩
  | panicked message => exact .inr ⟨_, rfl, rfl⟩

/-- A reader has room for at least one record in a batch. -/
theorem batch_of_pos (sourceName : String) (convert : Convertor) (batch : Nat)
    (upcoming : List RecordOutcome) :
    0 < (StreamReader.of sourceName convert batch upcoming).batch := by
  show 0 < if batch == 0 then defaultBatch else batch
  split
  next => decide
  next hbatch => exact Nat.pos_of_ne_zero fun hzero => hbatch (beq_iff_eq.mpr hzero)

end

end StreamReader

end BulkLoad
