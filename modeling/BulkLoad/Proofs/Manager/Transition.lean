import BulkLoad.Manager.Step

/-!
# What a step can do

`step` is a function of a state and a label. `Transition` lists its cases by name, one for each
thing that can happen, with the conditions under which it happens and the state that follows. Read
`transition_of_step` first: whatever is to be shown of every step is shown case by case of a
transition. Only the texts of reports are left open.
-/

namespace BulkLoad.Manager

namespace State

/-- Report several lines, the latest first. -/
def report (s : State) (lines : List LogLine) : State :=
  { s with history := lines.map .logged ++ s.history }

/-- A failure to close a source leads to a report, or to none. -/
theorem report_close (s : State) (graph sourceName : String) (closed : Except SourceError Unit) :
    ∃ lines, s.reportClose graph sourceName closed = s.report lines := by
  cases closed with
  | ok => exact ⟨[], rfl⟩
  | error error => exact ⟨[closeLine graph sourceName error], rfl⟩

/-- Hooks that failed lead to a report, and others to none. -/
theorem report_hooks (s : State) (graph : String) (phase : HookPhase) (result : Result) :
    ∃ lines, s.reportHooks graph phase result = s.report lines := by
  cases result with
  | ok => exact ⟨[], rfl⟩
  | error error => exact ⟨[_], rfl⟩

end State

/-! ## Jobs -/

/-- How a job goes on that has these importers still to wait for: it waits for the first of them,
or asks for the next batch, or ends because the run is being stopped. -/
inductive GoesOn (s : State) (n : Nat) (j : Job) : List Importer → State → Prop where
  | readying (importer : Importer) (rest : List Importer) :
      GoesOn s n j (importer :: rest) (s.moveJob n (.readying importer rest))
  | reading (hrun : s.cancelled = false) :
      GoesOn s n j [] ((s.moveJob n .reading).record (.reading n))
  | stopping (hstop : s.cancelled = true) : GoesOn s n j [] (s.endReading n j (.ok ()))

/-- Reading on is one of the ways to go on. -/
theorem goes_on_reading (s : State) (n : Nat) (j : Job) : GoesOn s n j [] (s.readOn n j) := by
  unfold State.readOn
  cases hcancelled : s.cancelled with
  | true => exact .stopping hcancelled
  | false => exact .reading hcancelled

/-- Waiting for importers is one of the ways to go on. -/
theorem goes_on_awaiting (s : State) (n : Nat) (j : Job) (importers : List Importer) :
    GoesOn s n j importers (s.awaitImporters n j importers) := by
  cases importers with
  | nil => exact goes_on_reading s n j
  | cons importer rest => exact .readying importer rest

/-- The task that begins with a batch of a job. -/
def newTask (settings : Settings) (n : Nat) (j : Job) (batch : Batch) : Task where
  job := n
  importers := j.importers
  batch := batch
  marks := List.replicate batch.records.length false
  point := .turning (portions settings.batch j.importers batch.records)

/-- What an answer does to job `n`, which is `j`. -/
inductive JobStep (settings : Settings) (s : State) (n : Nat) (j : Job) :
    Answer → State → Prop where
  | skipped (hpoint : j.point = .begun) (hnone : j.importers = []) :
      JobStep settings s n j .go (s.declineImport n (.ok ()))
  | refused (hpoint : j.point = .begun) (hsome : j.importers ≠ [])
      (hstop : s.cancelled = true ∨ s.readers.closed = true) :
      JobStep settings s n j .go (s.declineImport n (.error (.stopped settings.graphName)))
  | opening (hpoint : j.point = .begun) (hsome : j.importers ≠ []) (hrun : s.cancelled = false)
      (hopen : s.readers.closed = false) :
      JobStep settings s n j .go ((s.moveJob n .opening).record (.sourceOpening n))
  | opened (hpoint : j.point = .opening) :
      JobStep settings s n j (.source (.ok ())) ((s.record (.sourceOpened n)).moveJob n .sizing)
  | unopened (error : SourceError) (hpoint : j.point = .opening) :
      JobStep settings s n j (.source (.error error))
        (s.declineImport n (.error (.openSource settings.graphName j.sourceName error)))
  | registered (size : Nat) (hpoint : j.point = .sizing) (hopen : s.readers.closed = false) :
      JobStep settings s n j (.size (.ok size))
        { s with
          stats := s.stats.addTotal size
          units := s.units.acquire j.importers
          readers := s.readers.accept
          uncollected := s.uncollected ++ [n]
          jobs := s.jobs.modify n fun j => { j with point := .spawned, answer := some (.ok ()) }
          history := .registered n :: s.history }
  | unregistered (size : Nat) (lines : List LogLine) (hpoint : j.point = .sizing)
      (hclosed : s.readers.closed = true) :
      JobStep settings s n j (.size (.ok size))
        (({ s with
            stats := s.stats.addTotal size
            units := (s.units.acquire j.importers).release j.importers }.report lines).dismiss n
          (.submit settings.graphName j.sourceName ⟨s.readers.name⟩))
  | unsized (error : SourceError) (hpoint : j.point = .sizing) :
      JobStep settings s n j (.size (.error error))
        (s.dismiss n (.sourceSize settings.graphName j.sourceName error))
  | dismissed (error : ManagerError) (closed : Except SourceError Unit) (lines : List LogLine)
      (hpoint : j.point = .dismissing error) :
      JobStep settings s n j (.source closed) ((s.report lines).declineImport n (.error error))
  | enqueued (hpoint : j.point = .spawned) :
      JobStep settings s n j .go
        ({ s with readers := s.readers.enqueue n }.moveJob n .queued)
  | granted (hpoint : j.point = .queued) (hmay : s.readers.mayProceed n = true) :
      JobStep settings s n j .go
        { s with
          readers := s.readers.grant n
          jobs := s.jobs.modify n fun j =>
            { j with point := .gated, worker := !s.readers.closed } }
  | released (next : State) (hpoint : j.point = .gated) (hgate : s.started.released = true)
      (hnext : GoesOn s n j j.importers next) : JobStep settings s n j .go next
  | ready (importer : Importer) (rest : List Importer) (next : State)
      (hpoint : j.point = .readying importer rest) (hnext : GoesOn s n j rest next) :
      JobStep settings s n j .ready next
  | cancelled (hpoint : j.point = .gated ∨ ∃ importer rest, j.point = .readying importer rest)
      (hstop : s.cancelled = true) :
      JobStep settings s n j .cancelled (s.endReading n j (.ok ()))
  | readNothing (units : Nat) (next : State) (hpoint : j.point = .reading)
      (hnext : GoesOn { s.record (.read n (.batch units [])) with
        stats := s.stats.succeeded units 0 } n j [] next) :
      JobStep settings s n j (.batch (.batch units [])) next
  | readBatch (units : Nat) (records : Records) (hpoint : j.point = .reading)
      (hsome : records ≠ []) :
      JobStep settings s n j (.batch (.batch units records))
        ({ s.record (.read n (.batch units records)) with
            units := s.units.acquire j.importers
            importers := s.importers.enqueue n }.moveJob n (.submitting ⟨units, records⟩))
  | drained (hpoint : j.point = .reading) :
      JobStep settings s n j (.batch (.error .eof))
        ((s.record (.read n (.error .eof))).endReading n j (.ok ()))
  | failed (error : ReadError) (hpoint : j.point = .reading) (hfail : error ≠ .eof) :
      JobStep settings s n j (.batch (.error error))
        ((s.record (.read n (.error error))).endReading n j
          (.error (.readBatch settings.graphName j.sourceName error)))
  | lost (message : String) (hpoint : j.point = .reading) :
      JobStep settings s n j (.batch (.panicked message))
        ((s.record (.read n (.panicked message))).loseJob n j message)
  | submitted (batch : Batch) (next : State) (hpoint : j.point = .submitting batch)
      (hmay : s.importers.mayProceed n = true) (hopen : s.importers.closed = false)
      (hnext : GoesOn
        { s with
          importers := (s.importers.grant n).accept
          tasks := s.tasks ++ [(s.nextTask, newTask settings n j batch)]
          nextTask := s.nextTask + 1
          history := .submitted n s.nextTask batch :: s.history } n j [] next) :
      JobStep settings s n j .go next
  | rejected (batch : Batch) (lines : List LogLine) (next : State)
      (hpoint : j.point = .submitting batch) (hclosed : s.importers.closed = true)
      (hnext : GoesOn
        ({ s with
          importers := s.importers.refuse n
          units := s.units.release j.importers
          stats := s.stats.failed batch.units batch.records.length }.report lines
            |>.record (.rejected n batch)) n j [] next) :
      JobStep settings s n j .go next
  | ended (result : Result) (closed : Except SourceError Unit) (lines : List LogLine)
      (hpoint : j.point = .closing result) :
      JobStep settings s n j (.source closed)
        ({ s.report lines with readers := s.readers.finish j.worker }.moveJob n
          (.ended (.finished result)))

section

variable {settings : Settings} {s next : State} {n : Nat} {j : Job}

theorem JobStep.begin_import (hpoint : j.point = .begun) :
    JobStep settings s n j .go (s.beginImport settings.graphName n j) := by
  unfold State.beginImport
  split
  next hnone => exact .skipped hpoint (List.isEmpty_iff.mp hnone)
  next hsome =>
    rw [List.isEmpty_iff] at hsome
    split
    next hstop => exact .refused hpoint hsome (Bool.or_eq_true_iff.mp hstop)
    next hrun =>
      rw [Bool.not_eq_true, Bool.or_eq_false_iff] at hrun
      exact .opening hpoint hsome hrun.1 hrun.2

/-- Announcing the size of a source leaves the readers alone. -/
theorem announce_readers (s : State) (importers : List Importer) (size : Nat) :
    (s.announce importers size).readers = s.readers := rfl

theorem JobStep.register (size : Nat) (hpoint : j.point = .sizing) :
    JobStep settings s n j (.size (.ok size)) (s.register settings.graphName n j size) := by
  cases hclosed : s.readers.closed with
  | true =>
      simp only [State.register, announce_readers, WorkerPool.spawn, hclosed, if_true]
      exact .unregistered size [_] hpoint hclosed
  | false =>
      simp only [State.register, announce_readers, WorkerPool.spawn, hclosed, Bool.false_eq_true,
        if_false]
      exact .registered size hpoint hclosed

theorem JobStep.receive (outcome : BatchOutcome) (hpoint : j.point = .reading) :
    JobStep settings s n j (.batch outcome) (s.receive settings.graphName n j outcome) := by
  cases outcome with
  | batch units records =>
      cases records with
      | nil => exact .readNothing units _ hpoint (goes_on_reading _ _ _)
      | cons record records => exact .readBatch units _ hpoint (List.cons_ne_nil _ _)
  | error error =>
      cases error with
      | eof => exact .drained hpoint
      | skip | failed | source | convert | aborted => exact .failed _ hpoint nofun
  | panicked message => exact .lost message hpoint

theorem JobStep.end_job (result : Result) (closed : Except SourceError Unit)
    (hpoint : j.point = .closing result) :
    JobStep settings s n j (.source closed)
      (s.endJob settings.graphName n j result closed) := by
  obtain ⟨lines, hlines⟩ := s.report_close settings.graphName j.sourceName closed
  cases result with
  | ok =>
      simp only [State.endJob, hlines]
      exact .ended _ closed lines hpoint
  | error error =>
      simp only [State.endJob, hlines]
      exact .ended _ closed (_ :: lines) hpoint

/-- An answer to a job does one of the things that a `JobStep` lists. -/
theorem job_step_of_answer {answer : Answer} (h : s.stepJob settings n answer = some next) :
    ∃ j, s.jobs[n]? = some j ∧ JobStep settings s n j answer next := by
  simp only [State.stepJob] at h
  split at h
  · cases h
  · rename_i j hj
    refine ⟨j, hj, ?_⟩
    split at h
    -- The source is opened and asked for its size, and the job is handed to the readers.
    · cases h
      exact .begin_import ‹_›
    · cases h
      exact .opened ‹_›
    · cases h
      exact .unopened _ ‹_›
    · cases h
      exact .register _ ‹_›
    · cases h
      exact .unsized _ ‹_›
    · rename_i error closed hpoint
      cases h
      obtain ⟨lines, hlines⟩ := s.report_close settings.graphName j.sourceName closed
      rw [hlines]
      exact .dismissed error closed lines hpoint
    -- The job waits for a reader, for the start of the run, and for its importers.
    · cases h
      exact .enqueued ‹_›
    · split at h
      · cases h
        exact .granted ‹_› ‹_›
      · cases h
    · split at h
      · cases h
        exact .released _ ‹_› ‹_› (goes_on_awaiting _ _ _ _)
      · cases h
    · split at h
      · cases h
        exact .cancelled (.inl ‹_›) ‹_›
      · cases h
    · split at h
      · cases h
        exact .cancelled (.inr ⟨_, _, ‹_›⟩) ‹_›
      · cases h
    · cases h
      exact .ready _ _ _ ‹_› (goes_on_awaiting _ _ _ _)
    -- It reads batches and hands them over until its source is closed.
    · cases h
      exact .receive _ ‹_›
    · rename_i batch hpoint
      split at h
      · cases hclosed : s.importers.closed with
        | true =>
            simp only [hclosed, if_true] at h
            cases h
            exact .rejected batch [_] _ hpoint hclosed (goes_on_reading _ _ _)
        | false =>
            simp only [hclosed, Bool.false_eq_true, if_false] at h
            cases h
            exact .submitted batch _ hpoint ‹_› hclosed (goes_on_reading _ _ _)
      · cases h
    · cases h
      exact .end_job _ _ ‹_›
    · cases h

end

/-! ## Tasks -/

/-- The portions that a task has still to import, the one under way included. -/
def TaskPoint.remaining : TaskPoint → List Portion
  | .turning rest => rest
  | .sending shipment | .resting _ shipment => shipment.portion :: shipment.rest

/-- What the outcome of a portion leads to: the task goes on with the other portions, or it is lost
in a panic. -/
inductive Concluded (s : State) (n : Nat) (t : Task) (portion : Portion) (rest : List Portion)
    (outcome : ImportOutcome) : State → Prop where
  | imported (lines : List LogLine) (stats : Stats) (marks : List Bool)
      (hcalm : ∀ message, outcome ≠ .panicked message)
      (haccount : portion.account outcome s.stats t.marks = (.complete stats, marks)) :
      Concluded s n t portion rest outcome
        ({ (s.record (.imported n portion outcome)).report lines with stats }.putTask n
          { t with marks, point := .turning rest })
  | panicked (message : String) (houtcome : outcome = .panicked message) :
      Concluded s n t portion rest outcome
        ((s.record (.imported n portion outcome)).endTask n t)
  | overflowed (stats : Stats) (marks : List Bool)
      (haccount : portion.account outcome s.stats t.marks = (.overflowed stats, marks)) :
      Concluded s n t portion rest outcome
        ({ s.record (.imported n portion outcome) with stats }.endTask n t)

/-- What an answer does to task `n`, which is `t`. -/
inductive TaskStep (settings : Settings) (s : State) (n : Nat) (t : Task) :
    Answer → State → Prop where
  | settled (hpoint : t.point = .turning []) :
      TaskStep settings s n t .go (s.settleTask n t)
  | sent (portion : Portion) (rest : List Portion) (statement : String) (count : Nat)
      (hpoint : t.point = .turning (portion :: rest))
      (hplan : portion.importer.plan portion.records = .send statement count) :
      TaskStep settings s n t .go (s.send n t ⟨portion, statement, count, 0, rest⟩)
  | planned (portion : Portion) (rest : List Portion) (outcome : ImportOutcome) (next : State)
      (hpoint : t.point = .turning (portion :: rest))
      (hplan : portion.importer.plan portion.records = .settled outcome)
      (hnext : Concluded s n t portion rest outcome next) : TaskStep settings s n t .go next
  | concluded (shipment : Shipment) (reply : Reply)
      (result : Except (RetryError ClientError) Response) (next : State)
      (hpoint : t.point = .sending shipment)
      (hresult : (∃ response, Importer.attempt reply = .ok response ∧ result = .ok response) ∨
        ∃ error failure, Importer.attempt reply = .error error ∧
          shipment.portion.importer.retry.verdict Importer.classify shipment.attempt error =
            .giveUp failure ∧ result = .error failure)
      (hnext : Concluded s n t shipment.portion shipment.rest
        (Importer.conclude shipment.statement shipment.count result) next) :
      TaskStep settings s n t (.reply reply) next
  | crashed (shipment : Shipment) (message : String) (next : State)
      (hpoint : t.point = .sending shipment)
      (hnext : Concluded s n t shipment.portion shipment.rest (.panicked message) next) :
      TaskStep settings s n t (.panicked message) next
  | rested (shipment : Shipment) (reply : Reply) (error : ClientError) (delay : Duration)
      (hpoint : t.point = .sending shipment) (hreply : Importer.attempt reply = .error error)
      (hverdict : shipment.portion.importer.retry.verdict Importer.classify shipment.attempt
        error = .again delay) :
      TaskStep settings s n t (.reply reply)
        (s.putTask n { t with point := .resting delay shipment })
  | resent (delay : Duration) (shipment : Shipment) (hpoint : t.point = .resting delay shipment) :
      TaskStep settings s n t .elapsed
        (s.send n t { shipment with attempt := shipment.attempt + 1 })

section

variable {settings : Settings} {s next : State} {n : Nat} {t : Task}

/-- The end of a portion is one of its conclusions. -/
theorem concluded_portion (s : State) (graph : String) (n : Nat) (t : Task) (portion : Portion)
    (rest : List Portion) (outcome : ImportOutcome) :
    Concluded s n t portion rest outcome (s.endPortion graph n t portion rest outcome) := by
  cases outcome with
  | panicked message => exact .panicked message rfl
  | failed error => exact .imported [_] _ _ nofun rfl
  | imported result =>
      simp only [State.endPortion, State.reportPortion]
      split
      next heq => cases heq
      next haccount _ => exact .overflowed _ _ haccount
      next haccount _ => exact .imported [] _ _ nofun haccount

/-- Going on with the next portion is one of the steps of a task. -/
theorem TaskStep.next_portion {rest : List Portion} (hpoint : t.point = .turning rest) :
    TaskStep settings s n t .go (s.nextPortion settings.graphName n t rest) := by
  cases rest with
  | nil => exact .settled hpoint
  | cons portion rest =>
      simp only [State.nextPortion]
      split
      next hplan => exact .planned portion rest _ _ hpoint hplan (concluded_portion _ _ _ _ _ _ _)
      next hplan => exact .sent portion rest _ _ hpoint hplan

/-- Taking the answer to a statement is one of the steps of a task. -/
theorem TaskStep.receive_reply (shipment : Shipment) (reply : Reply)
    (hpoint : t.point = .sending shipment) :
    TaskStep settings s n t (.reply reply)
      (s.receiveReply settings.graphName n t shipment reply) := by
  simp only [State.receiveReply]
  split
  next response hreply =>
    exact .concluded shipment reply _ _ hpoint (.inl ⟨response, hreply, rfl⟩)
      (concluded_portion _ _ _ _ _ _ _)
  next error hreply =>
    split
    next failure hverdict =>
      exact .concluded shipment reply _ _ hpoint (.inr ⟨error, failure, hreply, hverdict, rfl⟩)
        (concluded_portion _ _ _ _ _ _ _)
    next delay hverdict => exact .rested shipment reply error delay hpoint hreply hverdict

/-- An answer to a task does one of the things that a `TaskStep` lists. -/
theorem task_step_of_answer {answer : Answer} (h : s.stepTask settings n answer = some next) :
    ∃ t, s.tasks.lookup n = some t ∧ TaskStep settings s n t answer next := by
  simp only [State.stepTask] at h
  split at h
  · cases h
  · rename_i t ht
    refine ⟨t, ht, ?_⟩
    split at h
    · cases h
      exact .next_portion ‹_›
    · cases h
      exact .receive_reply _ _ ‹_›
    · cases h
      exact .crashed _ _ _ ‹_› (concluded_portion _ _ _ _ _ _ _)
    · cases h
      exact .resent _ _ ‹_›
    · cases h

end

/-! ## Starting and stopping -/

/-- What an answer does to the body of starting. -/
inductive StartStep (settings : Settings) (s : State) : Answer → State → Prop where
  | stopped (hcell : s.startCell = .running .begun) (hstop : s.cancelled = true) :
      StartStep settings s .go (s.endStart (.error (.stopped settings.graphName)))
  | begun (progress : HookProgress) (events : List HookEvent)
      (hcell : s.startCell = .running .begun) (hrun : s.cancelled = false)
      (hbegin : HookRun.begin settings.hooks.before = (progress, events)) :
      StartStep settings s .go
        ((s.recordHooks .before events).afterStartHooks settings.graphName progress)
  | hooked (run : HookRun) (answer : Answer) (progress : HookProgress) (events : List HookEvent)
      (hcell : s.startCell = .running (.hooks run))
      (hreceive : run.receive settings.graphName .before answer = some (progress, events)) :
      StartStep settings s answer
        ((s.recordHooks .before events).afterStartHooks settings.graphName progress)
  | opened (hcell : s.startCell = .running .opening) :
      StartStep settings s (.client (.ok ())) (s.beginRun settings)
  | unopened (error : ClientError) (hcell : s.startCell = .running .opening) :
      StartStep settings s (.client (.error error))
        (s.endStart (.error (.clientPool settings.graphName error)))

/-- What an answer does to the body of stopping. -/
inductive StopStep (settings : Settings) (s : State) : Answer → State → Prop where
  | begun (hcell : s.stopCell = .running .begun) :
      StopStep settings s .go
        (({ s with cancelled := true, readers := s.readers.watch }.record .cancelled).moveStop
          (.drainingReaders s.readers.watch.drains))
  | readersDrained (since : Nat) (hcell : s.stopCell = .running (.drainingReaders since))
      (hdrained : s.readers.hasDrained since = true) :
      StopStep settings s .go
        ({ s with importers := s.importers.watch }.moveStop
          (.drainingImporters s.importers.watch.drains))
  | importersDrained (since : Nat) (hcell : s.stopCell = .running (.drainingImporters since))
      (hdrained : s.importers.hasDrained since = true) :
      StopStep settings s .go
        ({ s with
          readers := s.readers.close
          importers := s.importers.close
          uncollected := [] }.moveStop (.collecting s.uncollected 0))
  | collected (n : Nat) (rest : List Nat) (failed total : Nat) (j : Job) (result : JobEnd)
      (lines : List LogLine) (hcell : s.stopCell = .running (.collecting (n :: rest) failed))
      (hj : s.jobs[n]? = some j) (hpoint : j.point = .ended result) :
      StopStep settings s .go ((s.report lines).moveStop (.collecting rest total))
  | joining (failed : Nat) (lines : List LogLine)
      (hcell : s.stopCell = .running (.collecting [] failed)) (hreports : s.reporter ≠ none) :
      StopStep settings s .go ((s.report lines).moveStop .joining)
  | unhooked (lines : List LogLine)
      (hcell : (∃ failed, s.stopCell = .running (.collecting [] failed) ∧ s.reporter = none) ∨
        s.stopCell = .running .joining ∧ s.reporter = some .ended) :
      StopStep settings s .go ((s.report lines).beginStopHooks settings)
  | hooked (run : HookRun) (answer : Answer) (progress : HookProgress) (events : List HookEvent)
      (hcell : s.stopCell = .running (.hooks run))
      (hreceive : run.receive settings.graphName .after answer = some (progress, events)) :
      StopStep settings s answer
        ((s.recordHooks .after events).afterStopHooks settings.graphName progress)
  | closed (result : Result) (outcome : Except ClientError Unit)
      (hcell : s.stopCell = .running (.closing result)) :
      StopStep settings s (.client outcome) (s.endStop settings.graphName result outcome)

/-- Where hooks after the import that stand at this point leave stopping: it goes on with them, or
has the client pool closed if that is open, or is done. -/
inductive StopHooked (s : State) : HookProgress → State → Prop where
  | running (run : HookRun) : StopHooked s (.running run) (s.moveStop (.hooks run))
  | closing (result : Result) (lines : List LogLine) (hopened : s.poolOpened = true) :
      StopHooked s (.ended result)
        (({ s.report lines with poolOpened := false }.moveStop (.closing result)).record
          .poolClosing)
  | done (result : Result) (lines : List LogLine) (hunopened : s.poolOpened = false) :
      StopHooked s (.ended result) { s.report lines with stopCell := .done result }

/-- What an answer does to the progress reports. -/
inductive ReporterStep (s : State) : Answer → State → Prop where
  | ticked (answer : Answer) (hreporter : s.reporter = some .first ∨ s.reporter = some .ticking) :
      ReporterStep s answer ({ s with reporter := some .ticking }.record .progress)
  | ended (hreporter : s.reporter = some .ticking) (hstop : s.cancelled = true) :
      ReporterStep s .cancelled { s with reporter := some .ended }

/-- What happens when call `n`, which is `c`, goes on. -/
inductive CallStep (s : State) (n : Nat) (c : Call) : State → Prop where
  | waiting (hpoint : c.point = .begun) (hwish : c.wish = .wait) :
      CallStep s n c
        ({ s with readers := s.readers.watch }.moveCall n
          (.drainingReaders s.readers.watch.drains))
  | entered (hpoint : c.point = .begun) (hwish : c.wish ≠ .wait) :
      CallStep s n c (s.enter n c.wish)
  | readersDrained (since : Nat) (hpoint : c.point = .drainingReaders since)
      (hdrained : s.readers.hasDrained since = true) :
      CallStep s n c
        ({ s with importers := s.importers.watch }.moveCall n
          (.drainingImporters s.importers.watch.drains))
  | importersDrained (since : Nat) (hpoint : c.point = .drainingImporters since)
      (hdrained : s.importers.hasDrained since = true) : CallStep s n c (s.enter n c.wish)
  | answered (result : Result) (hpoint : c.point = .awaiting)
      (hresult : s.awaited? c.wish = some result) :
      CallStep s n c (s.moveCall n (.returned result))

section

variable {settings : Settings} {s next : State} {answer : Answer}

/-- An answer to the body of starting does one of the things that a `StartStep` lists. -/
theorem start_step_of_answer (h : s.stepStart settings answer = some next) :
    StartStep settings s answer next := by
  simp only [State.stepStart] at h
  split at h
  · cases hcancelled : s.cancelled with
    | true =>
        simp only [hcancelled, if_true] at h
        cases h
        exact .stopped ‹_› hcancelled
    | false =>
        simp only [hcancelled, Bool.false_eq_true, if_false] at h
        cases h
        exact .begun _ _ ‹_› hcancelled rfl
  · obtain ⟨⟨progress, events⟩, hreceive, h⟩ := Option.map_eq_some_iff.mp h
    cases h
    exact .hooked _ _ progress events ‹_› hreceive
  · cases h
    exact .opened ‹_›
  · cases h
    exact .unopened _ ‹_›
  · cases h

/-- Collecting a job that has ended leads to a report, or to none. -/
theorem report_collected (s : State) (graph : String) (result : JobEnd) :
    ∃ lines, (s.collect graph result).2 = s.report lines := by
  cases result with
  | finished result => cases result <;> exact ⟨[], rfl⟩
  | panicked message => exact ⟨[_], rfl⟩

/-- The end of collecting leads to a report, or to none. -/
theorem report_end_collecting (s : State) (settings : Settings) (failed : Nat) :
    ∃ lines, s.endCollecting settings failed =
      if s.reporter = none then (s.report lines).beginStopHooks settings
      else (s.report lines).moveStop .joining := by
  simp only [State.endCollecting]
  obtain ⟨lines, hlines⟩ : ∃ lines, (if 0 < failed then
      s.log (.warning "Some jobs did not finish cleanly"
        [("graph", settings.graphName), ("failed", toString failed)])
      else s) = s.report lines := by
    split
    · exact ⟨[_], rfl⟩
    · exact ⟨[], rfl⟩
  have hreporter : (s.report lines).reporter = s.reporter := rfl
  refine ⟨lines, ?_⟩
  rw [hlines, hreporter]
  cases s.reporter with
  | none => rfl
  | some point => rfl

/-- The hooks after the import leave stopping where a `StopHooked` says. -/
theorem State.stop_hooked (s : State) (graph : String) (progress : HookProgress) :
    StopHooked s progress (s.afterStopHooks graph progress) := by
  cases progress with
  | running run => exact .running run
  | ended result =>
      obtain ⟨lines, hlines⟩ := s.report_hooks graph .after result
      simp only [afterStopHooks, hlines]
      split
      next hopened => exact .closing result lines hopened
      next hunopened => exact .done result lines (Bool.not_eq_true _ ▸ hunopened)

/-- An answer to the body of stopping does one of the things that a `StopStep` lists. -/
theorem stop_step_of_answer (h : s.stepStop settings answer = some next) :
    StopStep settings s answer next := by
  simp only [State.stepStop] at h
  split at h
  · cases h
    exact .begun ‹_›
  -- Stopping waits for the readers and then for the importers.
  · split at h
    · cases h
      exact .readersDrained _ ‹_› ‹_›
    · cases h
  · split at h
    · cases h
      exact .importersDrained _ ‹_› ‹_›
    · cases h
  -- All results have been collected.
  · rename_i failed hcell
    cases h
    obtain ⟨lines, hlines⟩ := report_end_collecting s settings failed
    rw [hlines]
    split
    next hnone => exact .unhooked lines (.inl ⟨failed, hcell, hnone⟩)
    next hsome => exact .joining failed lines hcell hsome
  -- There is a result to collect if the job has ended.
  · rename_i n rest failed hcell
    split at h
    next result hpoint =>
      obtain ⟨j, hj, hpoint⟩ := Option.map_eq_some_iff.mp hpoint
      obtain ⟨lines, hlines⟩ := report_collected s settings.graphName result
      simp only [hlines] at h
      cases h
      exact .collected n rest failed _ j result lines hcell hj hpoint
    next => cases h
  · split at h
    next hreporter =>
      cases h
      exact .unhooked [] (.inr ⟨‹_›, by simpa using hreporter⟩)
    next => cases h
  · obtain ⟨⟨progress, events⟩, hreceive, h⟩ := Option.map_eq_some_iff.mp h
    cases h
    exact .hooked _ _ progress events ‹_› hreceive
  · cases h
    exact .closed _ _ ‹_›
  · cases h

/-- An answer to the progress reports does one of the things that a `ReporterStep` lists. -/
theorem reporter_step_of_answer (h : s.stepReporter answer = some next) :
    ReporterStep s answer next := by
  simp only [State.stepReporter] at h
  split at h
  · cases h
    exact .ticked _ (.inl ‹_›)
  · cases h
    exact .ticked _ (.inr ‹_›)
  · split at h
    · cases h
      exact .ended ‹_› ‹_›
    · cases h
  · cases h

/-- A call that goes on does one of the things that a `CallStep` lists. -/
theorem call_step_of_turn {n : Nat} (h : s.stepCall n = some next) :
    ∃ c, s.calls[n]? = some c ∧ CallStep s n c next := by
  simp only [State.stepCall] at h
  split at h
  · cases h
  · rename_i c hc
    refine ⟨c, hc, ?_⟩
    split at h
    · split at h
      · cases h
        exact .waiting ‹_› ‹_›
      · cases h
        exact .entered ‹_› ‹_›
    · split at h
      · cases h
        exact .readersDrained _ ‹_› ‹_›
      · cases h
    · split at h
      · cases h
        exact .importersDrained _ ‹_› ‹_›
      · cases h
    · obtain ⟨result, hresult, h⟩ := Option.map_eq_some_iff.mp h
      cases h
      exact .answered result ‹_› hresult
    · cases h

end

/-! ## All steps -/

/-- Everything that can happen in a run. -/
inductive Transition (settings : Settings) (s : State) : Label → State → Prop where
  | «import» (sourceName : String) (importers : List Importer) :
      Transition settings s (.import sourceName importers)
        { s with jobs := s.jobs ++ [{ sourceName, importers }] }
  | call (wish : Wish) :
      Transition settings s (.call wish) { s with calls := s.calls ++ [{ wish }] }
  | clock (time : Nat) : Transition settings s (.clock time) { s with clock := time }
  | job (n : Nat) (j : Job) (answer : Answer) (next : State) (hj : s.jobs[n]? = some j)
      (hstep : JobStep settings s n j answer next) :
      Transition settings s (.answer (.job n) answer) next
  | task (n : Nat) (t : Task) (answer : Answer) (next : State) (ht : s.tasks.lookup n = some t)
      (hstep : TaskStep settings s n t answer next) :
      Transition settings s (.answer (.task n) answer) next
  | start (answer : Answer) (next : State) (hstep : StartStep settings s answer next) :
      Transition settings s (.answer .starter answer) next
  | stop (answer : Answer) (next : State) (hstep : StopStep settings s answer next) :
      Transition settings s (.answer .stopper answer) next
  | report (answer : Answer) (next : State) (hstep : ReporterStep s answer next) :
      Transition settings s (.answer .reporter answer) next
  | caller (n : Nat) (c : Call) (next : State) (hc : s.calls[n]? = some c)
      (hstep : CallStep s n c next) : Transition settings s (.answer (.caller n) .go) next

/-- Every step is one of the transitions. -/
theorem transition_of_step {settings : Settings} {s next : State} {label : Label}
    (h : step settings s label = some next) : Transition settings s label next := by
  cases label with
  | «import» sourceName importers =>
      cases h
      exact .import sourceName importers
  | call wish =>
      cases h
      exact .call wish
  | clock time =>
      cases h
      exact .clock time
  | answer actor answer =>
      simp only [step] at h
      cases actor with
      | job n =>
          obtain ⟨j, hj, hstep⟩ := job_step_of_answer h
          exact .job n j answer next hj hstep
      | task n =>
          obtain ⟨t, ht, hstep⟩ := task_step_of_answer h
          exact .task n t answer next ht hstep
      | starter => exact .start answer next (start_step_of_answer h)
      | stopper => exact .stop answer next (stop_step_of_answer h)
      | reporter => exact .report answer next (reporter_step_of_answer h)
      | caller n =>
          cases answer with
          | go =>
              obtain ⟨c, hc, hstep⟩ := call_step_of_turn h
              exact .caller n c next hc hstep
          | cancelled | source | size | batch | ready | client | reply | panicked | elapsed =>
              cases h

end BulkLoad.Manager
