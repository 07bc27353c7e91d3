import BulkLoad.Proofs.Counters
import BulkLoad.Proofs.Manager.Ledger
import BulkLoad.Proofs.Portions

/-!
# The counters of one batch

What importing a batch adds to the counters is a function of the outcomes of its portions
(`batchGain`). The requests and the times are those of the portions, one by one, but a record fails
once, however many importers fail on it: the failed records are the positions that the marks have at
the end (`marks_of_range`), each of which lies in a portion on which its importer has failed. As
long as the accumulated times fit, importing a batch comes to its end and adds just that
(`counted_of_batch`).
-/

namespace BulkLoad

/-! ## Outcomes -/

namespace ImportOutcome

/-- The outcome of an import that was answered, without a panic. -/
def ofAnswer : Except ImportError Imported → ImportOutcome
  | .ok result => imported result
  | .error error => failed error

/-- Whether the importer failed. -/
def isFailed : ImportOutcome → Bool
  | failed _ => true
  | imported _ | panicked _ => false

/-- Whether the outcome counts as a request. A statement that carried no records was not sent. -/
def isRequest : ImportOutcome → Bool
  | imported result => 0 < result.records
  | failed _ => true
  | panicked _ => false

/-- The times of the statement that was executed, in nanoseconds. -/
def times : ImportOutcome → Nat × Nat
  | imported result =>
      if 0 < result.records then (result.latency.totalNanos, result.respTime.totalNanos)
      else (0, 0)
  | failed _ | panicked _ => (0, 0)

end ImportOutcome

/-- The records that a portion with this outcome counts as processed: those that its statement
carried, or all of its own if the importer failed. -/
def Portion.processed (p : Portion) : ImportOutcome → Nat
  | .imported result => result.records
  | .failed _ => p.records.length
  | .panicked _ => 0

/-- Whether an importer failed on a portion that holds the record at this position. -/
def failedAt (entries : List (Portion × ImportOutcome)) (position : Nat) : Bool :=
  entries.any fun (p, outcome) => outcome.isFailed && p.covers position

/-- What the portions of a batch add to each counter, by their outcomes. -/
def portionsGain (entries : List (Portion × ImportOutcome)) : Counter → Nat
  | .total | .processed | .totalRecords | .failedRecords => 0
  | .totalRequest => entries.countP fun (_, outcome) => outcome.isRequest
  | .failedRequest => entries.countP fun (_, outcome) => outcome.isFailed
  | .totalProcessed => (entries.map fun (p, outcome) => p.processed outcome).sum
  | .failedProcessed =>
      ((entries.filter fun (_, outcome) => outcome.isFailed).map fun (p, _) =>
        p.records.length).sum
  | .latency => (entries.map fun (_, outcome) => outcome.times.1).sum
  | .respTime => (entries.map fun (_, outcome) => outcome.times.2).sum

/-- What a batch of this many units and records adds to each counter, by the outcomes of its
portions. -/
def batchGain (units length : Nat) (entries : List (Portion × ImportOutcome)) : Counter → Nat
  | .processed => units
  | .totalRecords => length
  | .failedRecords => (List.range length).countP (failedAt entries)
  | counter => portionsGain entries counter

/-- The times of the portions can be added to those accumulated before. -/
structure TimesFitIn (stats : Stats) (entries : List (Portion × ImportOutcome)) : Prop where
  latency : stats.totalLatency.totalNanos + portionsGain entries .latency ≤
    Duration.longest.totalNanos
  respTime : stats.totalRespTime.totalNanos + portionsGain entries .respTime ≤
    Duration.longest.totalNanos

/-! ## Portions -/

section

variable {p : Portion} {outcome : ImportOutcome} {stats after : Stats} {before marks : List Bool}
  {entries : List (Portion × ImportOutcome)} {units : Nat}

/-- What one portion adds, and what the others add. -/
theorem portions_gain_cons (p : Portion) (outcome : ImportOutcome)
    (entries : List (Portion × ImportOutcome)) :
    portionsGain ((p, outcome) :: entries) =
      portionsGain [(p, outcome)] + portionsGain entries := by
  funext counter
  cases counter with
  | total | processed | totalRecords | failedRecords => rfl
  | totalRequest | failedRequest =>
      simp only [portionsGain, List.countP_cons, List.countP_nil, Pi.add_apply, Nat.zero_add,
        Nat.add_comm]
  | totalProcessed | latency | respTime =>
      simp only [portionsGain, List.map_cons, List.map_nil, List.sum_cons, List.sum_nil,
        Pi.add_apply, Nat.add_zero]
  | failedProcessed =>
      cases hfailed : outcome.isFailed <;> simp [portionsGain, hfailed]

/-- What accounting for a portion raises the counters by is what the portion adds. -/
theorem raised_eq_gain (p : Portion) (outcome : ImportOutcome) :
    p.raised outcome = counted (portionsGain [(p, outcome)]) := by
  funext counter
  cases outcome with
  | imported result =>
      by_cases hrecords : 0 < result.records
      · cases counter <;>
          simp [portionsGain, Portion.raised, Portion.account, hrecords, Stats.request_of_default,
            Stats.Update.stats, Stats.counters, counted, ImportOutcome.isRequest,
            ImportOutcome.isFailed, ImportOutcome.times, Portion.processed]
      · obtain hnone : result.records = 0 := by omega
        cases counter <;>
          simp [portionsGain, Portion.raised, Portion.account, hnone, Stats.Update.stats,
            Stats.counters, counted, ImportOutcome.isRequest, ImportOutcome.isFailed,
            ImportOutcome.times, Portion.processed, Duration.zero, Duration.totalNanos]
  | failed error =>
      cases counter <;>
        simp [portionsGain, Portion.raised, Portion.account, Stats.requestFailed,
          Stats.Update.stats, Stats.counters, counted, ImportOutcome.isRequest,
          ImportOutcome.isFailed, ImportOutcome.times, Portion.processed, Duration.zero,
          Duration.totalNanos]
  | panicked message =>
      cases counter <;>
        simp [portionsGain, Portion.raised, Portion.account, Stats.Update.stats, Stats.counters,
          counted, ImportOutcome.isRequest, ImportOutcome.isFailed, ImportOutcome.times,
          Portion.processed, Duration.zero, Duration.totalNanos]

/-- A portion whose account breaks off does not panic, and its times do not fit. -/
theorem gain_of_overflowed
    (h : p.account outcome stats before = (.overflowed after, marks)) :
    outcome.panic? = none ∧
      (Duration.longest.totalNanos <
          stats.totalLatency.totalNanos + portionsGain [(p, outcome)] .latency ∨
        Duration.longest.totalNanos <
          stats.totalRespTime.totalNanos + portionsGain [(p, outcome)] .respTime) := by
  cases outcome with
  | failed | panicked => cases h
  | imported result =>
      refine ⟨rfl, ?_⟩
      simp only [Portion.account] at h
      split at h
      next hrecords =>
        have hlong := Manager.tally_overflow (Prod.mk.inj h).1
        simpa [portionsGain, ImportOutcome.times, hrecords, Manager.Tally.of] using hlong
      next => cases h

/-- The times of a portion that is accounted for are added to those accumulated before. -/
theorem times_of_account (h : p.account outcome stats before = (.complete after, marks)) :
    after.totalLatency.totalNanos =
        stats.totalLatency.totalNanos + portionsGain [(p, outcome)] .latency ∧
      after.totalRespTime.totalNanos =
        stats.totalRespTime.totalNanos + portionsGain [(p, outcome)] .respTime := by
  have hcounters := counters_account h
  rw [raised_eq_gain] at hcounters
  exact ⟨congrFun hcounters .latency, congrFun hcounters .respTime⟩

/-- Portions whose times fit are accounted for one by one, whatever is marked. -/
theorem account_of_fits (h : TimesFitIn stats ((p, outcome) :: entries)) (before : List Bool) :
    ∃ after marks, p.account outcome stats before = (.complete after, marks) ∧
      TimesFitIn after entries := by
  obtain ⟨hlatency, hrespTime⟩ := h
  rw [portions_gain_cons, Pi.add_apply, ← Nat.add_assoc] at hlatency hrespTime
  cases haccount : p.account outcome stats before with
  | mk update marks =>
      cases update with
      | complete after =>
          obtain ⟨hlatencies, hrespTimes⟩ := times_of_account haccount
          rw [← hlatencies] at hlatency
          rw [← hrespTimes] at hrespTime
          exact ⟨after, marks, rfl, hlatency, hrespTime⟩
      | overflowed after =>
          obtain ⟨-, hlong | hlong⟩ := gain_of_overflowed haccount
          · exact absurd (Nat.le_trans (Nat.le_add_right _ _) hlatency) (Nat.not_le.mpr hlong)
          · exact absurd (Nat.le_trans (Nat.le_add_right _ _) hrespTime) (Nat.not_le.mpr hlong)

/-! ## Marks -/

/-- The marks after some portions. -/
def marksOf (entries : List (Portion × ImportOutcome)) (marks : List Bool) : List Bool :=
  entries.foldl (fun marks (p, outcome) => Manager.marksAfter p outcome marks) marks

/-- A portion marks the positions that it covers if its importer failed on it. -/
theorem marks_after_range (p : Portion) (outcome : ImportOutcome) (length : Nat)
    (marked : Nat → Bool) :
    Manager.marksAfter p outcome ((List.range length).map marked) =
      (List.range length).map fun position =>
        marked position || outcome.isFailed && p.covers position := by
  cases outcome with
  | imported | panicked => simp [Manager.marksAfter, ImportOutcome.isFailed]
  | failed error =>
      apply List.ext_getElem
      · simp [Manager.marksAfter, markFailed]
      · intro position _ _
        simp [Manager.marksAfter, markFailed, ImportOutcome.isFailed, Portion.covers]

/-- The positions that are marked in the end are those that were marked before and those of portions
on which an importer failed. -/
theorem marks_of_range (entries : List (Portion × ImportOutcome)) (length : Nat)
    (marked : Nat → Bool) :
    marksOf entries ((List.range length).map marked) =
      (List.range length).map fun position => marked position || failedAt entries position := by
  induction entries generalizing marked with
  | nil => simp [marksOf, failedAt]
  | cons entry entries ih =>
      obtain ⟨p, outcome⟩ := entry
      refine (congrArg (marksOf entries) (marks_after_range p outcome length marked)).trans ?_
      rw [ih]
      simp only [failedAt, List.any_cons, Bool.or_assoc]

/-- Without marks at first, the positions that are marked are those of portions on which an importer
failed. -/
theorem marks_of_fresh (entries : List (Portion × ImportOutcome)) (length : Nat) :
    marksOf entries (List.replicate length false) =
      (List.range length).map (failedAt entries) := by
  have hfresh : List.replicate length false = (List.range length).map fun _ => false := by
    rw [List.map_const', List.length_range]
  rw [hfresh, marks_of_range]
  simp only [Bool.false_or]

/-- What accounting for a batch with these marks adds: its units, and its records as the marks say.
-/
def settledGain (units : Nat) (marks : List Bool) : Counter → Nat
  | .processed => units
  | .totalRecords => marks.length
  | .failedRecords => marks.count true
  | _ => 0

/-- Accounting for a batch adds its units, and its records as the marks say. -/
theorem counters_settled (units : Nat) (marks : List Bool) :
    (settleBatch {} units marks).counters = counted (settledGain units marks) := by
  have hle : marks.count true ≤ marks.length := List.count_le_length
  funext counter
  simp only [settleBatch]
  split
  next =>
    cases counter <;>
      simp [Stats.counters, Stats.failed, Stats.succeeded, counted, settledGain, Duration.zero,
        Duration.totalNanos, ← UInt64.ofNat_add, Nat.add_sub_cancel' hle]
  next hunfailed =>
    obtain hzero : marks.count true = 0 := by omega
    cases counter <;>
      simp [Stats.counters, Stats.succeeded, counted, settledGain, Duration.zero,
        Duration.totalNanos, hzero]

/-! ## A batch -/

/-- The time of the start is none of the counters, and accounting leaves it as it is. -/
theorem start_time_account (h : p.account outcome stats before = (.complete after, marks)) :
    after.startTime = stats.startTime := by
  cases outcome with
  | failed | panicked => cases h; rfl
  | imported result =>
      simp only [Portion.account, Stats.requestSucceeded] at h
      split at h
      · split at h
        · cases h
        · split at h
          · cases h
          · cases h
            rfl
      · cases h
        rfl

/-- Importing a batch comes to its end if the times of its portions fit, and adds what its portions
add and what its marks say at the end. -/
theorem counters_of_batch (hfits : TimesFitIn stats entries) (units : Nat) (marks : List Bool) :
    ∃ after, importBatch units stats marks entries = .complete after ∧
      after.startTime = stats.startTime ∧
      after.counters = stats.counters +
        counted (portionsGain entries + settledGain units (marksOf entries marks)) := by
  induction entries generalizing stats marks with
  | nil =>
      refine ⟨_, rfl, ?_, ?_⟩
      · simp only [settleBatch]
        split <;> rfl
      · have hnone : portionsGain [] = 0 := by
          funext counter
          cases counter <;> rfl
        rw [hnone, zero_add, ← counters_settled]
        exact counters_settle stats units marks
  | cons entry entries ih =>
      obtain ⟨p, outcome⟩ := entry
      obtain ⟨middle, marked, haccount, hfits⟩ := account_of_fits hfits marks
      obtain ⟨after, hafter, hstart, hcounters⟩ := ih hfits marked
      obtain ⟨rfl, -⟩ := Manager.account_complete 0 haccount
      refine ⟨after, ?_, hstart.trans (start_time_account haccount), ?_⟩
      · rw [importBatch, haccount]
        exact hafter
      · have hmarks : marksOf ((p, outcome) :: entries) marks =
            marksOf entries (Manager.marksAfter p outcome marks) := rfl
        rw [hcounters, counters_account haccount, raised_eq_gain, hmarks,
          portions_gain_cons p outcome entries, add_assoc, add_assoc, ← counted_add]

/-- What the portions of a batch and its marks add is what the batch adds. -/
theorem batch_gain_eq (units length : Nat) (entries : List (Portion × ImportOutcome)) :
    portionsGain entries + settledGain units (marksOf entries (List.replicate length false)) =
      batchGain units length entries := by
  have hcount : ((List.range length).map (failedAt entries)).count true =
      (List.range length).countP (failedAt entries) := by
    rw [List.count, List.countP_map]
    exact List.countP_congr fun position _ => by simp
  rw [marks_of_fresh]
  funext counter
  cases counter <;> simp [portionsGain, batchGain, settledGain, hcount]

/-- Without marks at first, importing a batch adds what `batchGain` says if the times of its
portions fit. -/
theorem gain_of_batch (hfits : TimesFitIn stats entries) (units length : Nat) :
    ∃ after, importBatch units stats (List.replicate length false) entries = .complete after ∧
      after.startTime = stats.startTime ∧
      after.counters = stats.counters + counted (batchGain units length entries) := by
  obtain ⟨after, hafter, hstart, hcounters⟩ :=
    counters_of_batch hfits units (List.replicate length false)
  exact ⟨after, hafter, hstart, batch_gain_eq units length entries ▸ hcounters⟩

end

/-! ## Positions -/

/-- Fill a part of some marks, which has to lie within them. -/
def fill? (marks : List Bool) (offset count : Nat) : Option (List Bool) :=
  if offset + count ≤ marks.length then
    some (marks.take offset ++ List.replicate count true ++ marks.drop (offset + count))
  else none

/-- Marking the positions of a part is filling it. -/
theorem fill_of_le {marks : List Bool} {offset count : Nat} (h : offset + count ≤ marks.length) :
    fill? marks offset count = some (markFailed marks offset count) := by
  rw [fill?, if_pos h, Option.some.injEq]
  apply List.ext_getElem
  · simp only [markFailed, List.length_append, List.length_take, List.length_replicate,
      List.length_drop, List.length_mapIdx]
    omega
  · intro position hposition _
    have htake : (marks.take offset).length = offset := by
      rw [List.length_take]
      omega
    simp only [markFailed, List.getElem_mapIdx, List.getElem_append, List.length_append, htake,
      List.length_replicate, List.getElem_take, List.getElem_replicate, List.getElem_drop]
    -- Before the part, within it, and behind it.
    split
    · split
      · simp [Nat.not_le.mpr ‹position < offset›]
      · simp [‹position < offset + count›, Nat.not_lt.mp ‹¬ position < offset›]
    · have hposition : offset + count + (position - (offset + count)) = position := by omega
      simp [hposition, ‹¬ position < offset + count›]

/-- A part of a batch ends within it. -/
theorem Portion.IsPartOf.end_le {p : Portion} {records : Records} (h : p.IsPartOf records) :
    p.offset + p.records.length ≤ records.length := by
  have hnonempty := List.length_pos_iff.mpr h.nonempty
  have hle := h.placed.length_le
  rw [List.length_drop] at hle
  omega

/-- The outcomes of portions that were answered. -/
def outcomes (answered : List (Portion × Except ImportError Imported)) :
    List (Portion × ImportOutcome) :=
  answered.map fun (p, answer) => (p, .ofAnswer answer)

/-- The counters of one batch. Whatever the importers answer for its portions, importing the batch
adds just what `batchGain` says, as long as the accumulated times fit: as words, and as numbers for
every counter that the sum fits. Each portion is the part of the batch at its offset, and the part
of the marks that is filled if its importer fails lies within them. -/
theorem counted_of_batch {default units : Nat} {importers : List Importer} {records : Records}
    {stats : Stats} {answered : List (Portion × Except ImportError Imported)}
    (hportions : answered.map Prod.fst = portions default importers records)
    (hfits : TimesFitIn stats (outcomes answered)) :
    (∃ after,
      importBatch units stats (List.replicate records.length false) (outcomes answered) =
          .complete after ∧
        after.startTime = stats.startTime ∧
        after.counters =
          stats.counters + counted (batchGain units records.length (outcomes answered)) ∧
        ∀ counter : Counter, counter.Fits (stats.numbers counter +
            batchGain units records.length (outcomes answered) counter) →
          after.numbers counter = stats.numbers counter +
            batchGain units records.length (outcomes answered) counter) ∧
    ∀ done p answer rest, answered = done ++ (p, answer) :: rest →
      p.IsPartOf records ∧
        fill? (marksOf (outcomes done) (List.replicate records.length false)) p.offset
            p.records.length =
          some (markFailed (marksOf (outcomes done) (List.replicate records.length false)) p.offset
            p.records.length) := by
  obtain ⟨after, hafter, hstart, hcounters⟩ := gain_of_batch hfits units records.length
  refine ⟨⟨after, hafter, hstart, hcounters, fun _ => Stats.numbers_of_counted hcounters⟩, ?_⟩
  rintro done p answer rest rfl
  have hp : p ∈ portions default importers records := by
    rw [← hportions, List.map_append, List.map_cons]
    exact List.mem_append_right _ List.mem_cons_self
  have hpart := part_of_portions hp
  refine ⟨hpart, fill_of_le ?_⟩
  rw [marks_of_fresh, List.length_map, List.length_range]
  exact hpart.end_le

namespace Sample

/-- Two importers that cut three records in different places; a size of zero counts as one. -/
def cutters : List Importer := [
  { name := "pairs", build := fun records => .statement "CREATE" records.length,
    batchSize := some 2 },
  { name := "singles", build := fun records => .statement "MERGE" records.length,
    batchSize := some 0 }]

/-- The first importer fails on the first two records and the other one on the second, and nothing
is left of the third record for the other one. -/
def answered : List (Portion × Except ImportError Imported) :=
  (placed cutters[0] 0 [[["1"], ["2"]], [["3"]]]).zip
      [.error (.execute "CREATE" 5 (.transport "reset")), .ok ⟨1, .ofNanos 5, .ofNanos 7⟩] ++
    (placed cutters[1] 0 [[["1"]], [["2"]], [["3"]]]).zip
      [.ok ⟨1, .ofNanos 5, .ofNanos 7⟩, .error (.build 1 (.other "even")), .ok {}]

end Sample

/-- Of three records, the two on which importers failed are counted once each. Of five portions four
are requests, and two of these have failed. -/
theorem counted_of_cutters :
    Sample.answered.map Prod.fst = portions 128 Sample.cutters [["1"], ["2"], ["3"]] ∧
      TimesFitIn {} (outcomes Sample.answered) ∧
      ∃ after, importBatch 9 {} [false, false, false] (outcomes Sample.answered) =
          .complete after ∧
        after.totalRecords = 3 ∧ after.failedRecords = 2 ∧ after.totalRequest = 4 ∧
        after.failedRequest = 2 ∧ after.processed.toNat = 9 ∧
        after.totalLatency.totalNanos = 10 := by
  have hportions :
      Sample.answered.map Prod.fst = portions 128 Sample.cutters [["1"], ["2"], ["3"]] := by
    simp [Sample.answered, portions, Sample.cutters, Importer.portionSize, subBatches, placed]
  have hfits : TimesFitIn {} (outcomes Sample.answered) := ⟨by decide +kernel, by decide +kernel⟩
  obtain ⟨⟨after, hafter, -, hcounters, hnumbers⟩, -⟩ := counted_of_batch hportions hfits
  have hcounter (counter : Counter) := congrFun hcounters counter
  refine ⟨hportions, hfits, after, hafter, (hcounter .totalRecords).trans ?_,
    (hcounter .failedRecords).trans ?_, (hcounter .totalRequest).trans ?_,
    (hcounter .failedRequest).trans ?_, (hnumbers .processed ?_).trans ?_,
    (hcounter .latency).trans ?_⟩ <;> decide +kernel

end BulkLoad
