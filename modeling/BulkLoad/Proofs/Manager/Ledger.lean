import BulkLoad.Proofs.Manager.Growth
import BulkLoad.Proofs.Manager.Journal

/-!
# The ledger of a run

A `Ledger` keeps of a run what concerns its records: the journal, the batches that wait for a
worker, the tasks that are under way, and the counters. Every transition either leaves it as it is
or does one of the few things that `LedgerStep` lists; `ledger_step_of_transition` is that
simulation, and what is shown of every ledger step holds of every run. An `AccountStep` says
besides which batches have been settled, and with what a batch was lost.
-/

namespace BulkLoad.Manager

/-- A batch on its way through a task: what the task has still to import. -/
structure Work where
  job : Nat
  importers : List Importer
  batch : Batch
  marks : List Bool
  remaining : List Portion

/-- The counters of records and units, which are words, and the accumulated times in nanoseconds. -/
structure Tally where
  processed : UInt64
  totalRecords : UInt64
  failedRecords : UInt64
  latency : Nat
  respTime : Nat
deriving DecidableEq

/-- A run as its records see it: the entries of its history, the importers of each job, the batch
with which a job waits for a worker, the tasks by their numbers, and the counters. -/
structure Ledger where
  journal : Journal
  importers : List (List Importer)
  held : Nat → Option Batch
  work : Nat → Option Work
  nextTask : Nat
  tally : Tally

/-- The batch with which a job waits for a worker. -/
def JobPoint.batch? : JobPoint → Option Batch
  | .submitting batch => some batch
  | _ => none

/-- What a task has still to do. -/
def Task.work (t : Task) : Work := ⟨t.job, t.importers, t.batch, t.marks, t.point.remaining⟩

/-- The counters that concern records. -/
def Tally.of (stats : Stats) : Tally where
  processed := stats.processed
  totalRecords := stats.totalRecords
  failedRecords := stats.failedRecords
  latency := stats.totalLatency.totalNanos
  respTime := stats.totalRespTime.totalNanos

/-- What the records see of a state. -/
def State.ledger (s : State) : Ledger where
  journal := .of s.history
  importers := s.jobs.map Job.importers
  held n := s.jobs[n]?.bind fun j => j.point.batch?
  work n := (s.tasks.lookup n).map Task.work
  nextTask := s.nextTask
  tally := .of s.stats

namespace Tally

/-- Count units and records. -/
def count (t : Tally) (units records failed : Nat) : Tally :=
  { t with
    processed := t.processed + .ofNat units
    totalRecords := t.totalRecords + .ofNat records
    failedRecords := t.failedRecords + .ofNat failed }

/-- Accumulate times. -/
def spend (t : Tally) (times : Nat × Nat) : Tally :=
  { t with latency := t.latency + times.1, respTime := t.respTime + times.2 }

/-- No time changes nothing. -/
theorem spend_zero (t : Tally) : t.spend (0, 0) = t := rfl

/-- Counting twice is counting the sums. -/
theorem count_count (t : Tally) (units records failed moreUnits moreRecords moreFailed : Nat) :
    (t.count units records failed).count moreUnits moreRecords moreFailed =
      t.count (units + moreUnits) (records + moreRecords) (failed + moreFailed) := by
  simp only [count, UInt64.ofNat_add, UInt64.add_assoc]

/-- Records on which no importer failed. -/
theorem of_succeeded (stats : Stats) (units records : Nat) :
    of (stats.succeeded units records) = (of stats).count units records 0 := by
  simp [of, count, Stats.succeeded]

/-- Records on which some importer failed. -/
theorem of_failed (stats : Stats) (units records : Nat) :
    of (stats.failed units records) = (of stats).count units records records := rfl

end Tally

/-- The work that begins with a batch. -/
def newWork (settings : Settings) (n : Nat) (importers : List Importer) (batch : Batch) : Work where
  job := n
  importers := importers
  batch := batch
  marks := List.replicate batch.records.length false
  remaining := portions settings.batch importers batch.records

/-- The marks after a portion. -/
def marksAfter (portion : Portion) (outcome : ImportOutcome) (marks : List Bool) : List Bool :=
  match outcome with
  | .failed _ => markFailed marks portion.offset portion.records.length
  | .imported _ | .panicked _ => marks

/-- Enter a portion that was imported. -/
def Journal.enter (j : Journal) (task : Nat) (portion : Portion) (outcome : ImportOutcome) :
    Journal :=
  { j with imports := j.imports ++ [⟨task, portion, outcome⟩] }

/-- What can happen to the records of a run. -/
inductive LedgerStep (settings : Settings) (l : Ledger) : Ledger → Prop where
  | still : LedgerStep settings l l
  | joined (importers : List Importer) :
      LedgerStep settings l { l with importers := l.importers ++ [importers] }
  | readNothing (n units : Nat) :
      LedgerStep settings l
        { l with
          journal := { l.journal with reads := l.journal.reads ++ [(n, ⟨units, []⟩)] }
          tally := l.tally.count units 0 0 }
  | readBatch (n : Nat) (batch : Batch) (hsome : batch.records ≠ []) (hheld : l.held n = none) :
      LedgerStep settings l
        { l with
          journal := { l.journal with reads := l.journal.reads ++ [(n, batch)] }
          held := Function.update l.held n (some batch) }
  | submitted (n : Nat) (importers : List Importer) (batch : Batch)
      (himporters : l.importers[n]? = some importers) (hheld : l.held n = some batch) :
      LedgerStep settings l
        { l with
          journal := { l.journal with
            submissions := l.journal.submissions ++ [⟨n, l.nextTask, batch⟩] }
          held := Function.update l.held n none
          work := fun k =>
            (l.work k).or (if k = l.nextTask then some (newWork settings n importers batch)
              else none)
          nextTask := l.nextTask + 1 }
  | imported (k : Nat) (w : Work) (portion : Portion) (rest : List Portion)
      (outcome : ImportOutcome) (hwork : l.work k = some w)
      (hremaining : w.remaining = portion :: rest) :
      LedgerStep settings l
        { l with
          journal := l.journal.enter k portion outcome
          work := Function.update l.work k
            (some { w with marks := marksAfter portion outcome w.marks, remaining := rest })
          tally := l.tally.spend (Import.times ⟨k, portion, outcome⟩) }
  | settled (k : Nat) (w : Work) (hwork : l.work k = some w) (hremaining : w.remaining = []) :
      LedgerStep settings l
        { l with
          work := Function.update l.work k none
          tally := l.tally.count w.batch.units w.marks.length (w.marks.count true) }
  | panicked (k : Nat) (w : Work) (portion : Portion) (rest : List Portion)
      (outcome : ImportOutcome) (tally : Tally) (hwork : l.work k = some w)
      (hremaining : w.remaining = portion :: rest)
      (hpanic : (∃ message, outcome = .panicked message) ∨
        Duration.longest.totalNanos <
          (l.tally.spend (Import.times ⟨k, portion, outcome⟩)).latency ∨
        Duration.longest.totalNanos <
          (l.tally.spend (Import.times ⟨k, portion, outcome⟩)).respTime) :
      LedgerStep settings l
        { l with
          journal := l.journal.enter k portion outcome
          work := Function.update l.work k none
          tally := tally }

/-- The task that has settled its batch by an event. -/
def Event.settled? : Event → Option Nat
  | .settled task => some task
  | _ => none

/-- The tasks that have settled their batches, the latest first. -/
def settledTasks (history : List Event) : List Nat := history.filterMap Event.settled?

/-- What a step does to the ledger and to the tasks that have settled their batches. Every task goes
on as it was, or one of them imports a portion, or settles its batch, or is lost with a portion that
counts as imported at most. -/
inductive AccountStep (settings : Settings) (l : Ledger) (settled : List Nat) :
    Ledger → List Nat → Prop where
  | kept (next : Ledger) (hstep : LedgerStep settings l next)
      (hwork : ∀ k w, l.work k = some w → next.work k = some w) :
      AccountStep settings l settled next settled
  | imported (k : Nat) (w : Work) (portion : Portion) (rest : List Portion)
      (outcome : ImportOutcome) (hwork : l.work k = some w)
      (hremaining : w.remaining = portion :: rest) (hcalm : outcome.panic? = none) :
      AccountStep settings l settled
        { l with
          journal := l.journal.enter k portion outcome
          work := Function.update l.work k
            (some { w with marks := marksAfter portion outcome w.marks, remaining := rest })
          tally := l.tally.spend (Import.times ⟨k, portion, outcome⟩) } settled
  | settled (k : Nat) (w : Work) (hwork : l.work k = some w) (hremaining : w.remaining = []) :
      AccountStep settings l settled
        { l with
          work := Function.update l.work k none
          tally := l.tally.count w.batch.units w.marks.length (w.marks.count true) }
        (k :: settled)
  | lost (k : Nat) (w : Work) (portion : Portion) (rest : List Portion) (outcome : ImportOutcome)
      (times : Nat × Nat) (hwork : l.work k = some w) (hremaining : w.remaining = portion :: rest)
      (htimes : times.1 ≤ (Import.times ⟨k, portion, outcome⟩).1 ∧
        times.2 ≤ (Import.times ⟨k, portion, outcome⟩).2)
      (hcause : outcome.panic? ≠ none ∨
        Duration.longest.totalNanos <
          (l.tally.spend (Import.times ⟨k, portion, outcome⟩)).latency ∨
        Duration.longest.totalNanos <
          (l.tally.spend (Import.times ⟨k, portion, outcome⟩)).respTime) :
      AccountStep settings l settled
        { l with
          journal := l.journal.enter k portion outcome
          work := Function.update l.work k none
          tally := l.tally.spend times } settled

/-- A step of the accounts is one of the ledger. -/
theorem AccountStep.ledger_step {settings : Settings} {l next : Ledger} {settled others : List Nat}
    (h : AccountStep settings l settled next others) : LedgerStep settings l next := by
  cases h with
  | kept next hstep => exact hstep
  | imported k w portion rest outcome hwork hremaining =>
      exact .imported k w portion rest outcome hwork hremaining
  | settled k w hwork hremaining => exact .settled k w hwork hremaining
  | lost k w portion rest outcome times hwork hremaining _ hcause =>
      refine .panicked k w portion rest outcome _ hwork hremaining (hcause.imp_left ?_)
      intro hpanic
      cases outcome with
      | imported | failed => exact absurd rfl hpanic
      | panicked message => exact ⟨message, rfl⟩

/-! ## Every transition is a ledger step -/

section

variable {settings : Settings} {s next : State} {n : Nat} {j : Job}

/-- A state with the same jobs, tasks, entries and counters has the same ledger. -/
theorem ledger_eq (hjobs : next.jobs = s.jobs) (htasks : next.tasks = s.tasks)
    (hnext : next.nextTask = s.nextTask)
    (hjournal : Journal.of next.history = Journal.of s.history)
    (htally : Tally.of next.stats = Tally.of s.stats) : next.ledger = s.ledger := by
  simp only [State.ledger, hjobs, htasks, hnext, hjournal, htally]

/-- A change to a job that keeps its importers shows only in the batch that the job holds. -/
theorem ledger_modify (change : Job → Job) (hj : s.jobs[n]? = some j)
    (hchange : ∀ j, (change j).importers = j.importers)
    (hjobs : next.jobs = s.jobs.modify n change) :
    next.ledger =
      { next.ledger with
        importers := s.ledger.importers
        held := Function.update s.ledger.held n (change j).point.batch? } := by
  have himporters : next.jobs.map Job.importers = s.jobs.map Job.importers := by
    rw [hjobs]
    apply List.ext_getElem?
    intro k
    rw [List.getElem?_map, List.getElem?_map, List.getElem?_modify]
    cases s.jobs[k]? with
    | none => rfl
    | some other => by_cases hk : n = k <;> simp [hk, hchange]
  have hheld : next.ledger.held = Function.update s.ledger.held n (change j).point.batch? := by
    funext k
    simp only [State.ledger, hjobs, List.getElem?_modify, Function.update_apply]
    by_cases hk : k = n
    · subst hk
      simp [hj]
    · simp [hk, Ne.symm hk]
  rw [← hheld]
  simp only [State.ledger, himporters]

/-- A job that moves shows only in the batch that it holds. -/
theorem ledger_move (s : State) (hj : s.jobs[n]? = some j) (point : JobPoint) :
    (s.moveJob n point).ledger =
      { s.ledger with held := Function.update s.ledger.held n point.batch? } :=
  ledger_modify (fun j => { j with point }) hj (fun _ => rfl) rfl

/-- A step of a job that holds no batch before and after it, and does nothing else that is entered,
leaves the ledger as it is. -/
theorem ledger_still (change : Job → Job) (hj : s.jobs[n]? = some j)
    (hbefore : j.point.batch? = none) (hafter : (change j).point.batch? = none)
    (hjobs : next.jobs = s.jobs.modify n change)
    (hchange : ∀ j, (change j).importers = j.importers)
    (htasks : next.tasks = s.tasks) (hnext : next.nextTask = s.nextTask)
    (hjournal : Journal.of next.history = Journal.of s.history)
    (htally : Tally.of next.stats = Tally.of s.stats) : next.ledger = s.ledger := by
  have hheld : s.ledger.held n = none := by simp [State.ledger, hj, hbefore]
  rw [ledger_modify change hj hchange hjobs, hafter, ← hheld, Function.update_eq_self]
  simp only [State.ledger, htasks, hnext, hjournal, htally]

/-- A job that goes on holds no batch. -/
theorem GoesOn.ledger {importers : List Importer} (h : GoesOn s n j importers next)
    (hj : s.jobs[n]? = some j) :
    next.ledger = { s.ledger with held := Function.update s.ledger.held n none } := by
  cases h with
  | readying importer rest => exact ledger_move s hj _
  | reading => exact ledger_move s hj .reading
  | stopping => exact ledger_move s hj (.closing (.ok ()))

/-- A job that goes on without having held a batch leaves the ledger as it is. -/
theorem GoesOn.still {importers : List Importer} (h : GoesOn s n j importers next)
    (hj : s.jobs[n]? = some j) (hbatch : j.point.batch? = none) : next.ledger = s.ledger := by
  have hheld : s.ledger.held n = none := by simp [State.ledger, hj, hbatch]
  rw [h.ledger hj, ← hheld, Function.update_eq_self]

/-- A batch that is read is entered. -/
theorem ledger_read (s : State) (n units : Nat) (records : Records) :
    (s.record (.read n (.batch units records))).ledger =
      { s.ledger with
        journal := { s.ledger.journal with
          reads := s.ledger.journal.reads ++ [(n, ⟨units, records⟩)] } } := by
  simp only [State.ledger, State.record, Journal.of_read]

/-- A batch that is handed to a task is entered, and the task begins. -/
theorem ledger_submit (settings : Settings) (s : State) (importers : WorkerPool) (n : Nat)
    (j : Job) (batch : Batch) :
    ({ s with
        importers
        tasks := s.tasks ++ [(s.nextTask, newTask settings n j batch)]
        nextTask := s.nextTask + 1
        history := .submitted n s.nextTask batch :: s.history } : State).ledger =
      { s.ledger with
        journal := { s.ledger.journal with
          submissions := s.ledger.journal.submissions ++ [⟨n, s.ledger.nextTask, batch⟩] }
        work := fun k =>
          (s.ledger.work k).or (if k = s.ledger.nextTask then
            some (newWork settings n j.importers batch) else none)
        nextTask := s.ledger.nextTask + 1 } := by
  have hwork (k : Nat) :
      ((s.tasks ++ [(s.nextTask, newTask settings n j batch)]).lookup k).map Task.work =
        ((s.tasks.lookup k).map Task.work).or (if k = s.nextTask then
          some (newWork settings n j.importers batch) else none) := by
    rw [List.lookup_append, Option.map_or]
    congr 1
    by_cases hk : k = s.nextTask
    · simp [hk, newTask, newWork, Task.work, TaskPoint.remaining]
    · simp [hk]
  simp only [State.ledger, Journal.of_submitted, hwork]
  rfl

/-- Where the ledger is the same nothing has happened to the records. -/
theorem LedgerStep.of_eq (h : next.ledger = s.ledger) :
    LedgerStep settings s.ledger next.ledger := by
  rw [h]
  exact .still

/-- A job does not touch the records unless it reads a batch, hands one to a task or has one
rejected. -/
theorem JobStep.ledger {answer : Answer} (h : JobStep settings s n j answer next)
    (hj : s.jobs[n]? = some j)
    (hopen : ∀ batch, j.point = .submitting batch → s.importers.closed = false) :
    LedgerStep settings s.ledger next.ledger := by
  cases h with
  | skipped hpoint | refused hpoint | unopened _ hpoint =>
      exact .of_eq (ledger_still (fun j => { j with point := .absent, answer := some _ }) hj
        (by rw [hpoint]; rfl) rfl rfl (fun _ => rfl) rfl rfl rfl rfl)
  | opening hpoint | opened hpoint | unsized _ hpoint | drained hpoint | failed _ hpoint
  | lost _ hpoint =>
      exact .of_eq (ledger_still (fun j => { j with point := _ }) hj
        (by rw [hpoint]; rfl) rfl rfl (fun _ => rfl) rfl rfl rfl rfl)
  | registered size hpoint =>
      exact .of_eq (ledger_still (fun j => { j with point := .spawned, answer := some _ }) hj
        (by rw [hpoint]; rfl) rfl rfl (fun _ => rfl) rfl rfl rfl rfl)
  | enqueued hpoint =>
      exact .of_eq (ledger_still (fun j => { j with point := .queued }) hj
        (by rw [hpoint]; rfl) rfl rfl (fun _ => rfl) rfl rfl rfl rfl)
  | granted hpoint =>
      exact .of_eq (ledger_still (fun j => { j with point := .gated, worker := _ }) hj
        (by rw [hpoint]; rfl) rfl rfl (fun _ => rfl) rfl rfl rfl rfl)
  | unregistered size lines hpoint =>
      exact .of_eq (ledger_still (fun j => { j with point := .dismissing _ }) hj
        (by rw [hpoint]; rfl) rfl rfl (fun _ => rfl) rfl rfl (Journal.of_report lines _) rfl)
  | dismissed error closed lines hpoint =>
      exact .of_eq (ledger_still (fun j => { j with point := .absent, answer := some _ }) hj
        (by rw [hpoint]; rfl) rfl rfl (fun _ => rfl) rfl rfl (Journal.of_report lines _) rfl)
  | ended result closed lines hpoint =>
      exact .of_eq (ledger_still (fun j => { j with point := .ended _ }) hj
        (by rw [hpoint]; rfl) rfl rfl (fun _ => rfl) rfl rfl (Journal.of_report lines _) rfl)
  | cancelled hpoint =>
      have hbatch : j.point.batch? = none := by
        rcases hpoint with hpoint | ⟨importer, rest, hpoint⟩ <;> rw [hpoint] <;> rfl
      exact .of_eq (ledger_still (fun j => { j with point := .closing _ }) hj
        hbatch rfl rfl (fun _ => rfl) rfl rfl rfl rfl)
  | released next hpoint _ hnext | ready _ _ next hpoint hnext =>
      exact .of_eq (hnext.still hj (by rw [hpoint]; rfl))
  | readNothing units next hpoint hnext =>
      rw [hnext.still hj (by rw [hpoint]; rfl)]
      have hread : ({ s.record (.read n (.batch units [])) with
          stats := s.stats.succeeded units 0 } : State).ledger =
          { (s.record (.read n (.batch units []))).ledger with
            tally := .of (s.stats.succeeded units 0) } := rfl
      rw [hread, ledger_read, Tally.of_succeeded]
      exact .readNothing n units
  | readBatch units records hpoint hsome =>
      have hheld : s.ledger.held n = none := by simp [State.ledger, hj, hpoint, JobPoint.batch?]
      have hmove := ledger_move (s.record (.read n (.batch units records))) hj
        (.submitting ⟨units, records⟩)
      rw [ledger_read] at hmove
      exact (congrArg (LedgerStep settings s.ledger) hmove).mpr (.readBatch n _ hsome hheld)
  | submitted batch next hpoint _ _ hnext =>
      have hheld : s.ledger.held n = some batch := by
        simp [State.ledger, hj, hpoint, JobPoint.batch?]
      have himporters : s.ledger.importers[n]? = some j.importers := by
        simp [State.ledger, hj]
      rw [hnext.ledger hj, ledger_submit]
      exact .submitted n j.importers batch himporters hheld
  | rejected batch lines next hpoint hclosed =>
      -- The importers are open for a job that holds a batch.
      rw [hopen batch hpoint] at hclosed
      cases hclosed

/-! ### Tasks -/

/-- Counting an executed statement accumulates its times, and nothing else that concerns records. -/
theorem tally_of_request {stats after : Stats} {records : Nat} {latency respTime : Duration}
    (h : stats.requestSucceeded records latency respTime = .complete after) :
    Tally.of after = (Tally.of stats).spend (latency.totalNanos, respTime.totalNanos) := by
  simp only [Stats.requestSucceeded] at h
  split at h
  · cases h
  · rename_i totalLatency hlatency
    split at h
    · cases h
    · rename_i totalRespTime hrespTime
      cases h
      simp only [Tally.of, Tally.spend, Duration.totalNanos_add? hlatency,
        Duration.totalNanos_add? hrespTime]

/-- Counting an executed statement breaks off only if one of the accumulated times does not fit. -/
theorem tally_overflow {stats after : Stats} {records : Nat} {latency respTime : Duration}
    (h : stats.requestSucceeded records latency respTime = .overflowed after) :
    Duration.longest.totalNanos < (Tally.of stats).latency + latency.totalNanos ∨
      Duration.longest.totalNanos < (Tally.of stats).respTime + respTime.totalNanos := by
  simp only [Stats.requestSucceeded] at h
  split at h
  · exact .inl (Duration.longest_lt_of_add_eq_none ‹_›)
  · split at h
    · exact .inr (Duration.longest_lt_of_add_eq_none ‹_›)
    · cases h

/-- A portion that is accounted for without a panic leaves these marks and these times. -/
theorem account_complete {portion : Portion} {outcome : ImportOutcome} {stats after : Stats}
    {before marks : List Bool} (k : Nat)
    (h : portion.account outcome stats before = (.complete after, marks)) :
    marks = marksAfter portion outcome before ∧
      Tally.of after = (Tally.of stats).spend (Import.times ⟨k, portion, outcome⟩) := by
  cases outcome with
  | imported result =>
      by_cases hrecords : 0 < result.records
      · simp only [Portion.account, if_pos hrecords] at h
        obtain ⟨hstats, rfl⟩ := Prod.mk.inj h
        exact ⟨rfl, by simp only [Import.times, if_pos hrecords, tally_of_request hstats]⟩
      · simp only [Portion.account, if_neg hrecords] at h
        cases h
        exact ⟨rfl, by simp only [Import.times, if_neg hrecords, Tally.spend_zero]⟩
  | failed error | panicked message =>
      cases h
      exact ⟨rfl, (Tally.spend_zero _).symm⟩

/-- A portion whose account breaks off has times that no longer fit. -/
theorem account_overflowed {portion : Portion} {outcome : ImportOutcome} {stats after : Stats}
    {before marks : List Bool} (k : Nat)
    (h : portion.account outcome stats before = (.overflowed after, marks)) :
    Duration.longest.totalNanos <
        ((Tally.of stats).spend (Import.times ⟨k, portion, outcome⟩)).latency ∨
      Duration.longest.totalNanos <
        ((Tally.of stats).spend (Import.times ⟨k, portion, outcome⟩)).respTime := by
  cases outcome with
  | imported result =>
      by_cases hrecords : 0 < result.records
      · simp only [Portion.account, if_pos hrecords] at h
        simpa only [Tally.spend, Import.times, if_pos hrecords] using
          tally_overflow (Prod.mk.inj h).1
      · simp only [Portion.account, if_neg hrecords] at h
        cases h
  | failed error | panicked message => cases h

/-- A portion whose account breaks off counts for its times at most. -/
theorem tally_of_overflowed {portion : Portion} {outcome : ImportOutcome} {stats after : Stats}
    {before marks : List Bool} (k : Nat)
    (h : portion.account outcome stats before = (.overflowed after, marks)) :
    ∃ times, Tally.of after = (Tally.of stats).spend times ∧
      times.1 ≤ (Import.times ⟨k, portion, outcome⟩).1 ∧
      times.2 ≤ (Import.times ⟨k, portion, outcome⟩).2 := by
  cases outcome with
  | failed | panicked => cases h
  | imported result =>
      by_cases hrecords : 0 < result.records
      · simp only [Portion.account, if_pos hrecords] at h
        have hrequest := (Prod.mk.inj h).1
        simp only [Import.times, if_pos hrecords]
        simp only [Stats.requestSucceeded] at hrequest
        split at hrequest
        next =>
          cases hrequest
          exact ⟨(0, 0), (Tally.spend_zero (.of stats)).symm, Nat.zero_le _, Nat.zero_le _⟩
        next totalLatency hlatency =>
          split at hrequest
          next =>
            cases hrequest
            refine ⟨(result.latency.totalNanos, 0), ?_, Nat.le_refl _, Nat.zero_le _⟩
            simp only [Tally.of, Tally.spend, Duration.totalNanos_add? hlatency, Nat.add_zero]
          next => cases hrequest
      · simp only [Portion.account, if_neg hrecords] at h
        cases h

variable {t : Task}

/-- Putting another task in the place of one changes what is found under its number. -/
theorem lookup_put (n k : Nat) (other : Task) (tasks : List (Nat × Task)) :
    (tasks.map fun (number, present) =>
      (number, if number == n then other else present)).lookup k =
      (tasks.lookup k).map fun present => if k = n then other else present := by
  induction tasks with
  | nil => rfl
  | cons entry tasks ih =>
      obtain ⟨number, present⟩ := entry
      by_cases hk : k = number
      · subst hk
        simp
      · have hne : (k == number) = false := by simpa using hk
        simp only [List.map_cons, List.lookup_cons, hne]
        exact ih

/-- Taking a task out leaves nothing under its number, and the others as they are. -/
theorem lookup_end (n k : Nat) (tasks : List (Nat × Task)) :
    (tasks.filter fun (number, _) => number != n).lookup k =
      if k = n then none else tasks.lookup k := by
  induction tasks with
  | nil => simp
  | cons entry tasks ih =>
      obtain ⟨number, present⟩ := entry
      by_cases hn : number = n
      · subst hn
        rw [List.filter_cons_of_neg (by simp), ih, List.lookup_cons]
        by_cases hk : k = number
        · simp [hk]
        · have hne : (k == number) = false := by simpa using hk
          simp only [hne]
      · rw [List.filter_cons_of_pos (by simpa using hn), List.lookup_cons, List.lookup_cons, ih]
        by_cases hk : k = number
        · subst hk
          simp [hn]
        · have hne : (k == number) = false := by simpa using hk
          simp only [hne]

/-- The ledger knows the work of a task. -/
theorem ledger_work (ht : s.tasks.lookup n = some t) : s.ledger.work n = some t.work :=
  congrArg (Option.map Task.work) ht

/-- The importers that the ledger knows are those of a job. -/
theorem job_of_ledger {importers : List Importer}
    (h : s.ledger.importers[n]? = some importers) :
    ∃ j, s.jobs[n]? = some j ∧ j.importers = importers := by
  have hjobs : s.jobs[n]?.map Job.importers = some importers := by
    rw [← List.getElem?_map]
    exact h
  exact Option.map_eq_some_iff.mp hjobs

/-- Replacing a task replaces its work. -/
theorem ledger_put (s : State) (ht : s.tasks.lookup n = some t) (other : Task) :
    (s.putTask n other).ledger =
      { s.ledger with work := Function.update s.ledger.work n (some other.work) } := by
  have hwork : (s.putTask n other).ledger.work =
      Function.update s.ledger.work n (some other.work) := by
    funext k
    simp only [State.ledger, State.putTask, lookup_put, Function.update_apply]
    by_cases hk : k = n
    · subst hk
      simp [ht]
    · simp [hk]
  rw [← hwork]
  rfl

/-- Ending a task ends its work. -/
theorem ledger_end (s : State) (n : Nat) (t : Task) :
    (s.endTask n t).ledger =
      { s.ledger with work := Function.update s.ledger.work n none } := by
  have hwork : (s.endTask n t).ledger.work = Function.update s.ledger.work n none := by
    funext k
    simp only [State.ledger, State.endTask, lookup_end, Function.update_apply]
    split <;> rfl
  rw [← hwork]
  rfl

/-- A portion that is imported is entered, whatever is reported and counted. -/
theorem ledger_enter (s : State) (n : Nat) (portion : Portion) (outcome : ImportOutcome)
    (lines : List LogLine) (stats : Stats) :
    ({ (s.record (.imported n portion outcome)).report lines with stats } : State).ledger =
      { s.ledger with
        journal := s.ledger.journal.enter n portion outcome
        tally := .of stats } := by
  simp only [State.ledger, State.report, State.record, Journal.of_report, Journal.of_imported]
  rfl

/-- A portion is entered for a task that goes on with the others. -/
theorem ledger_imported (ht : s.tasks.lookup n = some t) (portion : Portion)
    (rest : List Portion) {outcome : ImportOutcome} (lines : List LogLine) {stats : Stats}
    {marks : List Bool}
    (haccount : portion.account outcome s.stats t.marks = (.complete stats, marks)) :
    ({ (s.record (.imported n portion outcome)).report lines with stats }.putTask n
        { t with marks, point := .turning rest }).ledger =
      { s.ledger with
        journal := s.ledger.journal.enter n portion outcome
        work := Function.update s.ledger.work n
          (some { t.work with marks := marksAfter portion outcome t.marks, remaining := rest })
        tally := s.ledger.tally.spend (Import.times ⟨n, portion, outcome⟩) } := by
  obtain ⟨rfl, htally⟩ := account_complete n haccount
  have hput := ledger_put
    { (s.record (.imported n portion outcome)).report lines with stats } ht
    { t with marks := marksAfter portion outcome t.marks, point := .turning rest }
  rw [ledger_enter, htally] at hput
  exact hput

/-- A portion is entered for a task that is lost with it. -/
theorem ledger_lost (s : State) (n : Nat) (t : Task) (portion : Portion) (outcome : ImportOutcome)
    (stats : Stats) :
    ({ s.record (.imported n portion outcome) with stats }.endTask n t).ledger =
      { s.ledger with
        journal := s.ledger.journal.enter n portion outcome
        work := Function.update s.ledger.work n none
        tally := .of stats } := by
  have hend := ledger_end { (s.record (.imported n portion outcome)).report [] with stats } n t
  rw [ledger_enter] at hend
  exact hend

/-- A batch that is settled counts its marks. -/
theorem tally_settled (stats : Stats) (units : Nat) (marks : List Bool) :
    Tally.of (settleBatch stats units marks) =
      (Tally.of stats).count units marks.length (marks.count true) := by
  -- The records that succeeded are those without a mark, so both counts add up to all records.
  have hle : marks.count true ≤ marks.length := List.count_le_length
  by_cases hfailed : 0 < marks.count true
  · simp only [settleBatch, if_pos hfailed, Tally.of_succeeded, Tally.of_failed, Tally.count_count,
      Nat.zero_add, Nat.add_zero, Nat.add_sub_cancel' hle]
  · have hzero : marks.count true = 0 := by omega
    simp only [settleBatch, hzero, Nat.lt_irrefl, if_false, Tally.of_succeeded, Nat.sub_zero]

/-- A task that settles its batch is over and counts what it has marked. -/
theorem ledger_settle (s : State) (n : Nat) (t : Task) :
    (s.settleTask n t).ledger =
      { s.ledger with
        work := Function.update s.ledger.work n none
        tally := s.ledger.tally.count t.batch.units t.marks.length (t.marks.count true) } := by
  refine (ledger_end _ n t).trans ?_
  rw [show s.ledger.tally = .of s.stats from rfl, ← tally_settled]
  rfl

/-- A task that moves without the end of a portion has as much to do as before. -/
theorem ledger_proceed (ht : s.tasks.lookup n = some t) (point : TaskPoint)
    (hpoint : point.remaining = t.point.remaining) :
    (s.putTask n { t with point }).ledger = s.ledger := by
  have hwork := ledger_work ht
  have hsame : ({ t with point } : Task).work = t.work := by
    simp only [Task.work, hpoint]
  rw [ledger_put s ht, hsame, ← hwork, Function.update_eq_self]

/-- The end of a portion is a step of the accounts. -/
theorem Concluded.account {portion : Portion} {rest : List Portion} {outcome : ImportOutcome}
    (h : Concluded s n t portion rest outcome next) (ht : s.tasks.lookup n = some t)
    (hpoint : t.point.remaining = portion :: rest) :
    AccountStep settings s.ledger (settledTasks s.history) next.ledger
      (settledTasks next.history) := by
  have hwork := ledger_work ht
  cases h with
  | imported lines stats marks hcalm haccount =>
      have hsettled : settledTasks (lines.map .logged ++ .imported n portion outcome :: s.history) =
          settledTasks s.history := filter_map_report (fun _ => rfl) lines _
      have hnone : outcome.panic? = none := by
        cases outcome with
        | imported | failed => rfl
        | panicked message => exact absurd rfl (hcalm message)
      rw [ledger_imported ht portion rest lines haccount]
      exact hsettled ▸ .imported n t.work portion rest outcome hwork hpoint hnone
  | panicked message houtcome =>
      have hlost := ledger_lost s n t portion outcome s.stats
      rw [← Tally.spend_zero (.of s.stats)] at hlost
      refine (congrArg (AccountStep settings s.ledger _ · _) hlost).mpr
        (.lost n t.work portion rest outcome (0, 0) hwork hpoint
          ⟨Nat.zero_le _, Nat.zero_le _⟩ (.inl ?_))
      rw [houtcome]
      nofun
  | overflowed stats marks haccount =>
      obtain ⟨times, htally, htimes⟩ := tally_of_overflowed n haccount
      rw [ledger_lost, htally]
      exact .lost n t.work portion rest outcome times hwork hpoint htimes
        (.inr (account_overflowed n haccount))

/-- A step of a task is a step of the accounts. -/
theorem TaskStep.account {answer : Answer} (h : TaskStep settings s n t answer next)
    (ht : s.tasks.lookup n = some t) :
    AccountStep settings s.ledger (settledTasks s.history) next.ledger
      (settledTasks next.history) := by
  have hwork := ledger_work ht
  have hsame {next : State} (hledger : next.ledger = s.ledger) :
      AccountStep settings s.ledger (settledTasks s.history) next.ledger
        (settledTasks s.history) := by
    rw [hledger]
    exact .kept s.ledger .still fun _ _ hwork => hwork
  cases h with
  | settled hpoint =>
      rw [ledger_settle]
      exact .settled n t.work hwork (by simp only [Task.work, hpoint, TaskPoint.remaining])
  | sent portion rest statement count hpoint =>
      exact hsame (ledger_proceed ht (.sending ⟨portion, statement, count, 0, rest⟩)
        (by rw [hpoint]; rfl))
  | resent delay shipment hpoint =>
      exact hsame (ledger_proceed ht (.sending { shipment with attempt := shipment.attempt + 1 })
        (by rw [hpoint]; rfl))
  | rested shipment reply error delay hpoint =>
      exact hsame (ledger_proceed ht (.resting delay shipment) (by rw [hpoint]; rfl))
  | planned portion rest outcome next hpoint _ hnext =>
      exact hnext.account ht (by rw [hpoint]; rfl)
  | concluded shipment reply result next hpoint _ hnext =>
      exact hnext.account ht (by rw [hpoint]; rfl)
  | crashed shipment message next hpoint hnext =>
      exact hnext.account ht (by rw [hpoint]; rfl)

/-! ### Starting, stopping and everything else -/

/-- Noting the time of the start does not concern records. -/
theorem tally_init (stats : Stats) (now : Nat) : Tally.of (stats.init now) = .of stats := by
  unfold Stats.init
  cases stats.startTime.isNone <;> rfl

/-- Starting leaves the ledger as it is. -/
theorem StartStep.ledger {answer : Answer} (h : StartStep settings s answer next) :
    next.ledger = s.ledger := by
  have hooks (graph : String) (progress : HookProgress) (events : List HookEvent) :
      ((s.recordHooks .before events).afterStartHooks graph progress).ledger = s.ledger := by
    have hjournal := Journal.of_hooks .before events s.history
    match progress with
    | .running run => exact ledger_eq rfl rfl rfl hjournal rfl
    | .ended (.error error) => exact ledger_eq rfl rfl rfl hjournal rfl
    | .ended (.ok ()) => exact ledger_eq rfl rfl rfl hjournal (tally_init s.stats s.clock)
  cases h with
  | stopped | opened | unopened => exact ledger_eq rfl rfl rfl rfl rfl
  | begun progress events | hooked _ _ progress events => exact hooks _ progress events

/-- Going on after the hooks of stopping leaves the ledger as it is. -/
theorem ledger_after_stop_hooks (s : State) (graph : String) (progress : HookProgress)
    (events : List HookEvent) :
    ((s.recordHooks .after events).afterStopHooks graph progress).ledger = s.ledger := by
  have hjournal := Journal.of_hooks .after events s.history
  have hhooked := (s.recordHooks .after events).stop_hooked graph progress
  generalize (s.recordHooks .after events).afterStopHooks graph progress = next at hhooked ⊢
  cases hhooked with
  | running => exact ledger_eq rfl rfl rfl hjournal rfl
  | closing _ lines | done _ lines =>
      exact ledger_eq rfl rfl rfl ((Journal.of_report lines _).trans hjournal) rfl

/-- Stopping leaves the ledger as it is. -/
theorem StopStep.ledger {answer : Answer} (h : StopStep settings s answer next) :
    next.ledger = s.ledger := by
  cases h with
  | begun | readersDrained | importersDrained => exact ledger_eq rfl rfl rfl rfl rfl
  | collected _ _ _ _ _ _ lines | joining _ lines =>
      exact ledger_eq rfl rfl rfl (Journal.of_report lines s.history) rfl
  | unhooked lines =>
      exact (ledger_after_stop_hooks (s.report lines) _ _ _).trans
        (ledger_eq rfl rfl rfl (Journal.of_report lines s.history) rfl)
  | hooked _ _ progress events => exact ledger_after_stop_hooks s _ progress events
  | closed result outcome =>
      cases outcome <;> exact ledger_eq rfl rfl rfl rfl rfl

/-- Calling for a body leaves the ledger as it is. -/
theorem ledger_enter_body (s : State) (n : Nat) (wish : Wish) :
    (s.enter n wish).ledger = s.ledger := by
  simp only [State.enter]
  split <;> exact ledger_eq rfl rfl rfl rfl rfl

/-- A job that is begun holds no batch. -/
theorem ledger_import (s : State) (sourceName : String) (importers : List Importer) :
    ({ s with jobs := s.jobs ++ [{ sourceName, importers }] } : State).ledger =
      { s.ledger with importers := s.ledger.importers ++ [importers] } := by
  simp only [State.ledger, Ledger.mk.injEq, List.map_append]
  refine ⟨trivial, rfl, ?_, trivial, trivial, trivial⟩
  funext k
  by_cases hk : k < s.jobs.length
  · rw [List.getElem?_append_left hk]
  · have hle := Nat.le_of_not_lt hk
    rw [List.getElem?_append_right hle, List.getElem?_eq_none hle]
    cases k - s.jobs.length <;> rfl

/-- Every transition is a ledger step, as long as the importers accept the batches that jobs hold.
-/
theorem ledger_step_of_transition {label : Label} (h : Transition settings s label next)
    (hopen : ∀ (n : Nat) (j : Job) (batch : Batch), s.jobs[n]? = some j →
      j.point = .submitting batch → s.importers.closed = false) :
    LedgerStep settings s.ledger next.ledger := by
  cases h with
  | «import» sourceName importers =>
      rw [ledger_import]
      exact .joined importers
  | call | clock => exact .of_eq rfl
  | job n j answer next hj hstep => exact hstep.ledger hj fun batch => hopen n j batch hj
  | task n t answer next ht hstep => exact (hstep.account ht).ledger_step
  | start answer next hstep => exact .of_eq hstep.ledger
  | stop answer next hstep => exact .of_eq hstep.ledger
  | report answer next hstep =>
      cases hstep with
      | ticked | ended => exact .of_eq (ledger_eq rfl rfl rfl rfl rfl)
  | caller n c next hc hstep =>
      cases hstep with
      | waiting | readersDrained | answered => exact .of_eq (ledger_eq rfl rfl rfl rfl rfl)
      | entered | importersDrained => exact .of_eq (ledger_enter_body s n c.wish)

end

end BulkLoad.Manager
