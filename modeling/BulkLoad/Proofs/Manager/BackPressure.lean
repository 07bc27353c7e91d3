import BulkLoad.Proofs.Manager.Accounting
import BulkLoad.Proofs.Manager.Collecting
import BulkLoad.Proofs.Manager.Workers
import Mathlib.Data.List.Induction

/-!
# Back-pressure

A job does not read on before a worker of the importers has taken its batch, so each worker of the
readers stands for one waiting batch at most, and each worker of the importers for one that is being
imported. Hence in every state at most as many batches as there are workers have been read and are
not over (`outstanding_of_reachable`). A job without a worker runs only once the readers have been
closed, and then it reads nothing.
-/

namespace BulkLoad.Manager

/-- The batches with records that jobs have read, with the jobs. -/
def Journal.filledReads (j : Journal) : List (Nat × Batch) :=
  j.reads.filter fun (_, batch) => !batch.records.isEmpty

namespace State

variable (s : State)

/-- The batches with which jobs wait for a worker, with the jobs. -/
def waitingBatches : List (Nat × Batch) :=
  s.jobs.zipIdx.filterMap fun (j, n) => j.point.batch?.map fun batch => (n, batch)

/-- The batches of the tasks that are not over, with their jobs. -/
def taskBatches : List (Nat × Batch) := s.tasks.map fun (_, t) => (t.job, t.batch)

/-- The batches of the tasks that are over, with their jobs. -/
def finishedBatches : List (Nat × Batch) :=
  s.ledger.finished.map fun submission => (submission.job, submission.batch)

/-- The batches that have been read and are not over, with their jobs. -/
def outstanding : List (Nat × Batch) := s.waitingBatches ++ s.taskBatches

end State

section

variable {settings : Settings} {s : State} {n : Nat} {j : Job}

/-! ## Which batches are outstanding -/

/-- Each job waits with the batch that the ledger says it holds. -/
theorem waiting_batches_of (s : State) (n : Nat) :
    (s.waitingBatches.filter fun (key, _) => key == n).map Prod.snd = (s.ledger.held n).toList := by
  have hjobs (jobs : List Job) :
      ((jobs.zipIdx.filterMap fun (j, n) => j.point.batch?.map fun batch => (n, batch)).filter
          fun (key, _) => key == n).map Prod.snd =
        (jobs[n]?.bind fun j => j.point.batch?).toList := by
    induction jobs using List.reverseRecOn with
    | nil => rfl
    | append_singleton jobs j ih =>
        rw [List.zipIdx_append, List.filterMap_append, List.filter_append, List.map_append, ih,
          WorkerPool.get_joined]
        by_cases hn : n = jobs.length
        · subst hn
          cases hbatch : j.point.batch? with
          | none => simp [hbatch]
          | some batch => simp [hbatch]
        · cases hbatch : j.point.batch? with
          | none => simp [hbatch, hn]
          | some batch => simp [hbatch, hn, Ne.symm hn]
  exact hjobs s.jobs

/-- The submissions whose tasks are not over are those of the tasks. -/
theorem perm_under_way (h : Reachable settings s) :
    (s.ledger.journal.submissions.filter
      fun submission => !(s.ledger.work submission.task).isNone).Perm
      (s.tasks.map fun (k, t) => ⟨t.job, k, t.batch⟩) := by
  have hsound := sound_of_reachable h
  have hdistinct := (State.drained_of_reachable h).tasks.distinct
  have hsubmissions : s.ledger.journal.submissions.Nodup := hsound.distinct.of_map _
  have htasks : (s.tasks.map fun (k, t) => (⟨t.job, k, t.batch⟩ : Submission)).Nodup := by
    refine List.Nodup.of_map Submission.task ?_
    rw [List.map_map]
    exact hdistinct
  refine (List.perm_ext_iff_of_nodup (hsubmissions.filter _) htasks).mpr fun submission => ?_
  rw [List.mem_filter, List.mem_map]
  constructor
  · rintro ⟨hmem, hwork⟩
    cases hlookup : s.tasks.lookup submission.task with
    | none =>
        simp [State.ledger, hlookup] at hwork
    | some t =>
        -- A task has been submitted once.
        have hsubmitted := (hsound.underWay _ _ (ledger_work hlookup)).submitted
        obtain ⟨before, later, hsplit, -⟩ := List.lookup_eq_some_iff.mp hlookup
        refine ⟨(submission.task, t), ?_, ?_⟩
        · rw [hsplit]
          exact List.mem_append_right _ List.mem_cons_self
        · exact List.inj_on_of_nodup_map hsound.distinct hsubmitted hmem rfl
  · rintro ⟨entry, hentry, rfl⟩
    have hwork := ledger_work (lookup_of_mem hentry hdistinct)
    refine ⟨(hsound.underWay _ _ hwork).submitted, ?_⟩
    show (!(s.ledger.work entry.1).isNone) = true
    rw [hwork]
    rfl

/-- The batches that were handed to tasks are those of tasks that are over, and of those that are
not. -/
theorem perm_handed (h : Reachable settings s) :
    (s.ledger.journal.submissions.map fun submission => (submission.job, submission.batch)).Perm
      (s.finishedBatches ++ s.taskBatches) := by
  have hsplit := List.filter_append_perm
    (fun submission => (s.ledger.work submission.task).isNone) s.ledger.journal.submissions
  have htasks := (perm_under_way h).map fun submission => (submission.job, submission.batch)
  rw [List.map_map] at htasks
  refine (hsplit.symm.map _).trans ?_
  rw [List.map_append]
  exact htasks.append_left _

/-- The batches with records that have been read are outstanding, or of tasks that are over. -/
theorem perm_outstanding (h : Reachable settings s) :
    (Journal.of s.history).filledReads.Perm (s.outstanding ++ s.finishedBatches) := by
  have hreads := (sound_of_reachable h).perm_reads s.waitingBatches (waiting_batches_of s)
  have hturned : (s.finishedBatches ++ s.taskBatches ++ s.waitingBatches).Perm
      (s.outstanding ++ s.finishedBatches) := by
    rw [List.append_assoc]
    exact List.perm_append_comm.trans (List.perm_append_comm.append_right _)
  exact hreads.trans (((perm_handed h).append_right _).trans hturned)

/-! ## How many there can be -/

/-- A job that holds a batch has a worker of the readers. -/
theorem worker_of_submitting (h : Reachable settings s) (hj : j ∈ s.jobs)
    (hsubmitting : j.point.isSubmitting = true) : j.phase.hasWorker = true := by
  cases hpoint : j.point with
  | submitting batch =>
      have hopen : s.readers.closed = false := by
        rw [(State.collected_of_reachable h).closed, Bool.eq_false_iff]
        intro hlate
        have hphase := (State.drained_of_reachable h).phase
        have hidle := ((State.stop_phase_late hlate).mp hphase).2.1 j hj
        rw [hpoint] at hidle
        cases hidle
      have hmanned := (staffed_of_reachable h).readers.manned hopen
      have hphase : j.phase = .running j.worker := by rw [Job.phase, hpoint]
      cases hworker : j.worker with
      | true =>
          rw [hphase, hworker]
          rfl
      | false =>
          refine absurd (List.mem_map.mpr ⟨j, hj, ?_⟩) hmanned
          rw [hphase, hworker]
  | begun | opening | sizing | dismissing | absent | spawned | queued | gated | readying | reading
  | closing | ended =>
      rw [hpoint] at hsubmitting
      cases hsubmitting

/-- There are as many waiting batches as there are jobs that wait with one. -/
theorem waiting_batches_length (s : State) :
    s.waitingBatches.length = s.jobs.countP fun j => j.point.isSubmitting := by
  have hholds (point : JobPoint) : point.isSubmitting = point.batch?.isSome := by
    cases point with
    | submitting => rfl
    | begun | opening | sizing | dismissing | absent | spawned | queued | gated | readying | reading
    | closing | ended => rfl
  have hjobs := congrArg (List.countP fun j => j.point.isSubmitting) (s.jobs.zipIdx_map_fst 0)
  rw [List.countP_map] at hjobs
  rw [State.waitingBatches, List.length_filterMap_eq_countP, ← hjobs]
  refine List.countP_congr fun (j, n) _ => ?_
  rw [Option.isSome_map, Function.comp_apply, hholds]

/-- There are as many waiting batches as there are workers of the readers at most. -/
theorem waiting_le (h : Reachable settings s) :
    s.waitingBatches.length ≤ max settings.readerConcurrency 1 := by
  have hcount := waiting_batches_length s
  have hworkers := (staffed_of_reachable h).readers.workers
  have hle : s.jobs.countP (fun j => j.point.isSubmitting) ≤
      (s.jobs.map Job.phase).countP WorkerPool.Phase.hasWorker := by
    rw [List.countP_map]
    exact List.countP_mono_left fun j hj => worker_of_submitting h hj
  omega

/-- There are as many tasks that are not over as there are workers of the importers at most. -/
theorem tasks_le (h : Reachable settings s) :
    s.taskBatches.length ≤ max settings.importerConcurrency 1 := by
  have hworkers := (staffed_of_reachable h).importers
  have htracked := (State.drained_of_reachable h).tasks.tracked
  rw [State.taskBatches, List.length_map]
  omega

/-- In every reachable state the batches with records that have been read are outstanding or those
of tasks that are over, and as many are outstanding as there are workers of both pools at most. The
batch of a task that is over has been settled, unless the task was lost in a panic or because the
accumulated times no longer fit. So as long as nothing has panicked no other batches that have been
read remain to be imported. -/
theorem outstanding_of_reachable (h : Reachable settings s) :
    (Journal.of s.history).filledReads.Perm (s.outstanding ++ s.finishedBatches) ∧
      s.outstanding.length ≤
        max settings.readerConcurrency 1 + max settings.importerConcurrency 1 ∧
      (∀ submission ∈ s.ledger.finished, ∃ j, s.jobs[submission.job]? = some j ∧
        s.ledger.Fate settings (settledTasks s.history) submission j.importers) ∧
      ((Journal.of s.history).Calm → s.ledger.finished = settledIn s.history) := by
  refine ⟨perm_outstanding h, ?_, fun _ hsubmission => fate_of_finished h hsubmission, ?_⟩
  · rw [State.outstanding, List.length_append]
    exact Nat.add_le_add (waiting_le h) (tasks_le h)
  · exact fun hcalm => ((accounts_of_reachable h).settled_eq_finished hcalm).symm

end

namespace Crowded

/-- There is one worker of each kind. -/
def settings : Settings := { Sample.settings with readerConcurrency := 1, importerConcurrency := 1 }

/-- A job reads three batches, while the first is settled and the second is being imported. -/
def labels : List Label := [
  .import "people" [{ name := "pairs", build := fun _ => .statement "CREATE" 1 }],
  .answer (.job 0) .go, .answer (.job 0) (.source (.ok ())), .answer (.job 0) (.size (.ok 6)),
  .call .start, .answer (.caller 0) .go, .answer .starter .go, .answer .starter (.client (.ok ())),
  .answer (.job 0) .go, .answer (.job 0) .go, .answer (.job 0) .go, .answer (.job 0) .ready,
  .answer (.job 0) (.batch (.batch 2 [["1"]])), .answer (.job 0) .go,
  .answer (.job 0) (.batch (.batch 2 [["2"]])), .answer (.task 0) .go,
  .answer (.task 0) Sample.executed, .answer (.task 0) .go, .answer (.job 0) .go,
  .answer (.job 0) (.batch (.batch 2 [["3"]]))]

/-- The state at the end. -/
def state : State := (run settings (.initial settings) labels).getD (.initial settings)

end Crowded

/-- Of three batches one has been settled, one is being imported and one waits, which is as many as
there can be with one worker of each kind. -/
theorem outstanding_of_crowded :
    Crowded.state.outstanding.length = 2 ∧
      max Crowded.settings.readerConcurrency 1 + max Crowded.settings.importerConcurrency 1 = 2 ∧
      (Journal.of Crowded.state.history).filledReads.length =
        Crowded.state.outstanding.length + (settledIn Crowded.state.history).length ∧
      (settledIn Crowded.state.history).length = 1 := by
  have hreachable : Reachable Crowded.settings Crowded.state := reachable_run _ _
  have hcalm : (Journal.of Crowded.state.history).Calm := by decide +kernel
  have hsettled : (settledIn Crowded.state.history).length = 1 := by decide +kernel
  have htwo : 2 ≤ Crowded.state.outstanding.length := by decide +kernel
  obtain ⟨hperm, hbound, -, hfinished⟩ := outstanding_of_reachable hreachable
  have hmost : max Crowded.settings.readerConcurrency 1 +
      max Crowded.settings.importerConcurrency 1 = 2 := rfl
  have hreads := hperm.length_eq
  rw [State.finishedBatches, hfinished hcalm, List.length_append, List.length_map] at hreads
  exact ⟨by omega, hmost, hreads, hsettled⟩

end BulkLoad.Manager
