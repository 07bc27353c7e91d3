import Mathlib.Logic.Relation
import BulkLoad.Proofs.Manager.Heeding

/-!
# Stopping is never stuck

A call that stops the run waits for the body of stopping, which waits for jobs, tasks and the
progress reports. A job may in turn wait for those who have the workers, and for those who stand
before it in a queue (`State.WaitsFor`); until then it can do nothing (`stuck_of_waiting`). Nobody
waits in a circle (`no_circle`), since whoever is waited for has a lower rank, and nobody waits for
what never comes: whoever holds stopping up can go on or waits for another who does
(`goes_on_or_waits`). Hence a call that stops the run can go on itself or waits, directly or through
others, for somebody who can (`goes_on_of_stopping`). Whether the run has been started has no part
in it, nor has any importer to be ready.
-/

namespace BulkLoad.Manager

/-- Whether a call stops the run and has not returned. A call that waits for everything to be
imported does so when it waits for the result. -/
def Call.isStopping (c : Call) : Bool :=
  match c.wish, c.point with
  | .stop, point => !point.isReturned
  | .wait, .awaiting => true
  | .wait, _ | .start, _ => false

/-- The answers that the outside may give to a request. It has none for whoever waits for a turn,
and none is expected of an importer, which may never be ready. -/
inductive Request.Admits : Request → Answer → Prop where
  | opened (job : Nat) (result : Except SourceError Unit) :
      Admits (.openSource job) (.source result)
  | sized (job : Nat) (result : Except SourceError Nat) : Admits (.sizeSource job) (.size result)
  | closed (job : Nat) (result : Except SourceError Unit) :
      Admits (.closeSource job) (.source result)
  | read (job : Nat) (outcome : BatchOutcome) : Admits (.readBatch job) (.batch outcome)
  | poolOpened (result : Except ClientError Unit) : Admits .openPool (.client result)
  | poolClosed (result : Except ClientError Unit) : Admits .closePool (.client result)
  | clientOpened (result : Except ClientError Unit) : Admits .openClient (.client result)
  | clientClosed (result : Except ClientError Unit) : Admits .closeClient (.client result)
  | hooked (statement : String) (reply : Reply) : Admits (.hook statement) (.reply reply)
  | executed (statement : String) (reply : Reply) : Admits (.execute statement) (.reply reply)
  | crashed (statement message : String) : Admits (.execute statement) (.panicked message)
  | elapsed (duration : Duration) : Admits (.timer duration) .elapsed

/-- An actor can go on: by itself, because the run is being stopped, or when the outside answers,
whatever the answer is. -/
inductive State.CanGoOn (settings : Settings) (s : State) (actor : Actor) : Prop where
  | turn (h : (step settings s (.answer actor .go)).isSome = true)
  | cancelled (h : (step settings s (.answer actor .cancelled)).isSome = true)
  | answered (hsome : ∃ given, (s.request settings actor).Admits given)
      (h : ∀ given, (s.request settings actor).Admits given →
        (step settings s (.answer actor given)).isSome = true)

/-- Whom an actor waits for that can do nothing until then. A call waits for stopping, and stopping
for whatever its point says. A job waits for those who have the workers and for those who stand
before it in the queue. -/
inductive State.WaitsFor (s : State) : Actor → Actor → Prop where
  | called (k : Nat) (c : Call) (point : StopPoint) (hc : s.calls[k]? = some c)
      (hpoint : c.point = .awaiting) (hwish : c.wish ≠ .start)
      (hcell : s.stopCell = .running point) : WaitsFor s (.caller k) .stopper
  | drainingReaders (since n : Nat) (j : Job)
      (hcell : s.stopCell = .running (.drainingReaders since))
      (hblocked : s.readers.hasDrained since = false) (hj : s.jobs[n]? = some j)
      (htracked : j.point.isTracked = true) : WaitsFor s .stopper (.job n)
  | drainingImporters (since n : Nat) (t : Task)
      (hcell : s.stopCell = .running (.drainingImporters since))
      (hblocked : s.importers.hasDrained since = false) (ht : s.tasks.lookup n = some t) :
      WaitsFor s .stopper (.task n)
  | collecting (n : Nat) (rest : List Nat) (failed : Nat) (j : Job)
      (hcell : s.stopCell = .running (.collecting (n :: rest) failed)) (hj : s.jobs[n]? = some j)
      (htracked : j.point.isTracked = true) : WaitsFor s .stopper (.job n)
  | joining (hcell : s.stopCell = .running .joining) (hunended : s.reporter ≠ some .ended) :
      WaitsFor s .stopper .reporter
  | reader (n m : Nat) (j holder : Job) (hj : s.jobs[n]? = some j) (hpoint : j.point = .queued)
      (hblocked : s.readers.mayProceed n = false) (hm : s.jobs[m]? = some holder)
      (hworker : holder.phase = .running true) : WaitsFor s (.job n) (.job m)
  | readerBefore (n m : Nat) (j : Job) (hj : s.jobs[n]? = some j) (hpoint : j.point = .queued)
      (hblocked : s.readers.mayProceed n = false)
      (hbefore : s.readers.queue.idxOf m < s.readers.queue.idxOf n) :
      WaitsFor s (.job n) (.job m)
  | importer (n m : Nat) (j : Job) (batch : Batch) (t : Task) (hj : s.jobs[n]? = some j)
      (hpoint : j.point = .submitting batch) (hblocked : s.importers.mayProceed n = false)
      (ht : s.tasks.lookup m = some t) : WaitsFor s (.job n) (.task m)
  | importerBefore (n m : Nat) (j : Job) (batch : Batch) (hj : s.jobs[n]? = some j)
      (hpoint : j.point = .submitting batch) (hblocked : s.importers.mayProceed n = false)
      (hbefore : s.importers.queue.idxOf m < s.importers.queue.idxOf n) :
      WaitsFor s (.job n) (.job m)

/-- An actor whom stopping may have to wait for, or who waits for stopping, has not come to its end.
Jobs and the progress reports can hear that the run is being stopped. -/
inductive State.HoldsUp (s : State) : Actor → Prop where
  | job (n : Nat) (j : Job) (hj : s.jobs[n]? = some j) (htracked : j.point.isTracked = true)
      (hstop : s.cancelled = true) : HoldsUp s (.job n)
  | task (n : Nat) (t : Task) (ht : s.tasks.lookup n = some t) : HoldsUp s (.task n)
  | reporter (hreporter : s.reporter = some .first ∨ s.reporter = some .ticking)
      (hstop : s.cancelled = true) : HoldsUp s .reporter
  | stopper (point : StopPoint) (hcell : s.stopCell = .running point) : HoldsUp s .stopper
  | caller (k : Nat) (c : Call) (hc : s.calls[k]? = some c) (hstopping : c.isStopping = true) :
      HoldsUp s (.caller k)

/-- An actor can go on, or waits for another who holds stopping up. -/
def State.GoesOnOrWaits (settings : Settings) (s : State) (actor : Actor) : Prop :=
  s.CanGoOn settings actor ∨ ∃ other, s.WaitsFor actor other ∧ s.HoldsUp other

/-- How many waits may follow one another from an actor on. A job that waits for a reader may wait
for jobs that wait for an importer. -/
def State.rank (s : State) : Actor → Nat
  | .task _ | .reporter | .starter => 0
  | .job n =>
      if n ∈ s.readers.queue then s.importers.queue.length + 2 + s.readers.queue.idxOf n
      else s.importers.queue.idxOf n + 1
  | .stopper => s.importers.queue.length + s.readers.queue.length + 3
  | .caller _ => s.importers.queue.length + s.readers.queue.length + 4

section

variable {settings : Settings} {s : State} {n k : Nat} {j : Job} {t : Task} {c : Call}
  {actor other : Actor}

/-! ## Who is in the queues -/

/-- The queue of the readers holds the jobs that wait for one. -/
theorem mem_readers_queue (h : s.Staffed settings) :
    n ∈ s.readers.queue ↔ ∃ j, s.jobs[n]? = some j ∧ j.point = .queued := by
  rw [h.readers.waiting, List.getElem?_map]
  cases s.jobs[n]? with
  | none => simp
  | some j => cases hpoint : j.point <;> simp [Job.phase, hpoint, WorkerPool.Phase.isWaiting]

/-- The queue of the importers holds the jobs that wait to hand over a batch. -/
theorem mem_importers_queue (h : s.Staffed settings) :
    n ∈ s.importers.queue ↔ ∃ j batch, s.jobs[n]? = some j ∧ j.point = .submitting batch := by
  rw [h.submitting]
  cases s.jobs[n]? with
  | none => simp
  | some j => cases hpoint : j.point <;> simp [hpoint, JobPoint.isSubmitting]

/-- A job that does not wait for a reader is not in their queue. -/
theorem not_in_readers_queue (h : s.Staffed settings) (hj : s.jobs[n]? = some j)
    (hpoint : j.point ≠ .queued) : n ∉ s.readers.queue := by
  intro hmem
  obtain ⟨other, hother, hqueued⟩ := (mem_readers_queue h).mp hmem
  rw [hj] at hother
  cases hother
  exact hpoint hqueued

/-- Whoever stands before another in a queue is in it. -/
theorem mem_of_before {queue : List Nat} {m : Nat} (h : queue.idxOf m < queue.idxOf n) :
    m ∈ queue := by
  have hle : queue.idxOf n ≤ queue.length := List.idxOf_le_length
  exact List.idxOf_lt_length_iff.mp (by omega)

/-- The first in a queue stands before all others. -/
theorem first_before {queue rest : List Nat} {first : Nat} (hqueue : queue = first :: rest)
    (hne : first ≠ n) : queue.idxOf first < queue.idxOf n := by
  rw [hqueue, List.idxOf_cons_self, List.idxOf_cons_ne _ hne]
  omega

/-! ## Nobody waits in a circle -/

/-- Whoever waits for another can do nothing until then. -/
theorem stuck_of_waiting (hwaits : s.WaitsFor actor other) (given : Answer) :
    step settings s (.answer actor given) = none := by
  cases hwaits with
  | called k c point hc hpoint hwish hcell =>
      have hnone : s.awaited? c.wish = none := by
        cases hwish' : c.wish with
        | start => exact absurd hwish' hwish
        | stop | wait =>
            rw [State.awaited?, hcell]
            rfl
      cases given <;> simp [step, stepActor, State.stepCall, hc, hpoint, hnone]
  | drainingReaders since n j hcell hblocked | drainingImporters since n t hcell hblocked =>
      cases given <;> simp [step, stepActor, State.stepStop, hcell, hblocked]
  | collecting n rest failed j hcell hj htracked =>
      have hunended (result : JobEnd) : j.point ≠ .ended result := by
        intro hended
        rw [hended] at htracked
        cases htracked
      cases given <;> simp [step, stepActor, State.stepStop, hcell, hj, hunended]
  | joining hcell hunended =>
      cases given <;> simp [step, stepActor, State.stepStop, hcell, hunended]
  | reader n m j holder hj hpoint hblocked | readerBefore n m j hj hpoint hblocked
  | importer n m j batch t hj hpoint hblocked | importerBefore n m j batch hj hpoint hblocked =>
      cases given <;> simp [step, stepActor, State.stepJob, hj, hpoint, hblocked]

/-- No job outranks stopping. -/
theorem rank_job (s : State) (n : Nat) : s.rank (.job n) < s.rank .stopper := by
  have hreaders : s.readers.queue.idxOf n ≤ s.readers.queue.length := List.idxOf_le_length
  have himporters : s.importers.queue.idxOf n ≤ s.importers.queue.length := List.idxOf_le_length
  simp only [State.rank]
  split <;> omega

/-- Whoever is waited for has a lower rank. -/
theorem rank_of_waiting (h : s.Staffed settings) (hwaits : s.WaitsFor actor other) :
    s.rank other < s.rank actor := by
  cases hwaits with
  | called => exact Nat.lt_succ_self _
  | drainingReaders _ n | collecting n => exact rank_job s n
  | drainingImporters | joining => exact Nat.succ_pos _
  | reader n m j holder hj hpoint _ hm hworker =>
      have hn : n ∈ s.readers.queue := (mem_readers_queue h).mpr ⟨j, hj, hpoint⟩
      have hnot : m ∉ s.readers.queue := by
        refine not_in_readers_queue h hm fun hqueued => ?_
        simp [Job.phase, hqueued] at hworker
      have hle : s.importers.queue.idxOf m ≤ s.importers.queue.length := List.idxOf_le_length
      simp only [State.rank, hn, hnot, if_true, if_false]
      omega
  | readerBefore n m j hj hpoint _ hbefore =>
      have hn : n ∈ s.readers.queue := (mem_readers_queue h).mpr ⟨j, hj, hpoint⟩
      simp only [State.rank, hn, mem_of_before hbefore, if_true]
      omega
  | importer =>
      simp only [State.rank]
      split <;> omega
  | importerBefore n m j batch hj hpoint _ hbefore =>
      obtain ⟨before, carried, hm, hcarries⟩ := (mem_importers_queue h).mp (mem_of_before hbefore)
      have hn : n ∉ s.readers.queue := not_in_readers_queue h hj (by rw [hpoint]; nofun)
      have hnot : m ∉ s.readers.queue := not_in_readers_queue h hm (by rw [hcarries]; nofun)
      simp only [State.rank, hn, hnot, if_false]
      omega

/-- Whoever is waited for through others has a lower rank. -/
theorem rank_of_chain (h : s.Staffed settings) (hchain : Relation.TransGen s.WaitsFor actor other) :
    s.rank other < s.rank actor := by
  induction hchain with
  | single hwaits => exact rank_of_waiting h hwaits
  | tail _ hwaits ih => exact Nat.lt_trans (rank_of_waiting h hwaits) ih

/-- In no reachable state does anybody wait for themselves through others. -/
theorem no_circle (h : Reachable settings s) : ¬ Relation.TransGen s.WaitsFor actor actor :=
  fun hcircle => Nat.lt_irrefl _ (rank_of_chain (staffed_of_reachable h) hcircle)

/-! ## Whoever holds stopping up goes on or waits -/

/-- Whoever waits for the outside can go on if every answer to its request leads to a step. -/
theorem State.CanGoOn.of_request {request : Request} {given : Answer}
    (hrequest : s.request settings actor = request) (hadmits : request.Admits given)
    (h : ∀ given, request.Admits given → (step settings s (.answer actor given)).isSome = true) :
    s.CanGoOn settings actor :=
  .answered ⟨given, hrequest ▸ hadmits⟩ (hrequest ▸ h)

/-- A task can always go on: it has its turn, or waits for an answer or for time. -/
theorem task_goes_on (ht : s.tasks.lookup n = some t) : s.CanGoOn settings (.task n) := by
  have hrequest : s.request settings (.task n) = t.point.request := by simp [State.request, ht]
  cases hpoint : t.point with
  | turning rest =>
      refine .turn ?_
      simp [step, stepActor, State.stepTask, ht, hpoint]
  | sending shipment =>
      rw [hpoint] at hrequest
      refine .of_request hrequest (.executed _ (.ok (.failure ""))) fun given hadmits => ?_
      cases hadmits with
      | executed | crashed => simp [step, stepActor, State.stepTask, ht, hpoint]
  | resting delay shipment =>
      rw [hpoint] at hrequest
      refine .of_request hrequest (.elapsed delay) fun given hadmits => ?_
      cases hadmits with
      | elapsed => simp [step, stepActor, State.stepTask, ht, hpoint]

/-- A job that has a reader runs, and the readers keep count of it. -/
theorem running_of_worker (h : j.phase.hasWorker = true) :
    j.phase = .running true ∧ j.point.isTracked = true := by
  unfold Job.phase at h ⊢
  cases hpoint : j.point with
  | begun | opening | sizing | dismissing | absent | spawned | queued | ended =>
      rw [hpoint] at h
      cases h
  | gated | readying | reading | submitting | closing =>
      rw [hpoint] at h
      cases hworker : j.worker with
      | true => exact ⟨rfl, rfl⟩
      | false =>
          rw [hworker] at h
          cases h

/-- The readers keep count of a registered job until it has ended. -/
theorem tracked_or_ended {point : JobPoint} (h : point.isRegistered = true) :
    point.isTracked = true ∨ ∃ result, point = .ended result := by
  cases point with
  | begun | opening | sizing | dismissing | absent => cases h
  | spawned | queued | gated | readying | reading | submitting | closing => exact .inl rfl
  | ended result => exact .inr ⟨result, rfl⟩

/-- A watched pool that a call still waits for keeps count of somebody. -/
theorem tracked_of_blocked {p : WorkerPool} {since : Nat} (hwatched : p.isWatched = true)
    (hblocked : p.hasDrained since = false) : 0 < p.tracked := by
  rw [WorkerPool.hasDrained, hwatched, Bool.or_eq_false_iff] at hblocked
  have hsome : p.tracked ≠ 0 := by simpa using hblocked.1
  omega

/-- If there are tasks then one can be found. -/
theorem exists_task (h : 0 < s.tasks.length) : ∃ k t, s.tasks.lookup k = some t := by
  obtain ⟨⟨k, t⟩, rest, htasks⟩ := List.exists_cons_of_length_pos h
  exact ⟨k, t, by rw [htasks, List.lookup_cons_self]⟩

/-- A job that waits for a reader goes on, or waits for a job that has one, or for the first job in
the queue. -/
theorem queued_job_goes_on (h : Reachable settings s) (hj : s.jobs[n]? = some j)
    (hpoint : j.point = .queued) (hstop : s.cancelled = true) :
    s.GoesOnOrWaits settings (.job n) := by
  have hstaffed := staffed_of_reachable h
  have hn : n ∈ s.readers.queue := (mem_readers_queue hstaffed).mpr ⟨j, hj, hpoint⟩
  cases hmay : s.readers.mayProceed n with
  | true =>
      refine .inl (.turn ?_)
      simp [step, stepActor, State.stepJob, hj, hpoint, hmay]
  | false =>
      rcases hstaffed.readers.exists_may_or_holder hn with
        ⟨first, rest, hqueue, hfirst⟩ | ⟨-, m, phase, hm, hworker⟩
      · have hne : first ≠ n := by
          rintro rfl
          rw [hmay] at hfirst
          cases hfirst
        have hin : first ∈ s.readers.queue := hqueue ▸ List.mem_cons_self
        obtain ⟨front, hfront, hqueued⟩ := (mem_readers_queue hstaffed).mp hin
        exact .inr ⟨.job first, .readerBefore n first j hj hpoint hmay (first_before hqueue hne),
          .job first front hfront (by rw [hqueued]; rfl) hstop⟩
      · rw [List.getElem?_map, Option.map_eq_some_iff] at hm
        obtain ⟨holder, hm, rfl⟩ := hm
        obtain ⟨hrunning, htracked⟩ := running_of_worker hworker
        exact .inr ⟨.job m, .reader n m j holder hj hpoint hmay hm hrunning,
          .job m holder hm htracked hstop⟩

/-- A job that holds a batch hands it over, or waits for a task that has an importer, or for the
first job in the queue. -/
theorem submitting_job_goes_on (h : Reachable settings s) (hj : s.jobs[n]? = some j)
    {batch : Batch} (hpoint : j.point = .submitting batch) (hstop : s.cancelled = true) :
    s.GoesOnOrWaits settings (.job n) := by
  have hstaffed := staffed_of_reachable h
  have hdrained := State.drained_of_reachable h
  have hopen := hdrained.open_of_submitting hj hpoint
  have hn : n ∈ s.importers.queue := (mem_importers_queue hstaffed).mpr ⟨j, batch, hj, hpoint⟩
  cases hmay : s.importers.mayProceed n with
  | true =>
      refine .inl (.turn ?_)
      simp [step, stepActor, State.stepJob, hj, hpoint, hmay, hopen]
  | false =>
      obtain ⟨first, rest, hqueue⟩ := List.exists_cons_of_ne_nil (List.ne_nil_of_mem hn)
      by_cases hfirst : first = n
      · subst hfirst
        have hfree : ¬ 0 < s.importers.free := by
          intro hfree
          rw [WorkerPool.may_of_first hfree hqueue] at hmay
          cases hmay
        -- No importer is free, so there are as many tasks as there are importers.
        have himporters := hstaffed.importers
        have htracked := hdrained.tasks.tracked
        obtain ⟨k, t, ht⟩ := exists_task (s := s) (by omega)
        exact .inr ⟨.task k, .importer first k j batch t hj hpoint hmay ht, .task k t ht⟩
      · have hin : first ∈ s.importers.queue := hqueue ▸ List.mem_cons_self
        obtain ⟨front, carried, hfront, hcarries⟩ := (mem_importers_queue hstaffed).mp hin
        exact .inr ⟨.job first,
          .importerBefore n first j batch hj hpoint hmay (first_before hqueue hfirst),
          .job first front hfront (by rw [hcarries]; rfl) hstop⟩

/-- A job that has heard that the run is being stopped, and has not ended, goes on or waits for a
job or a task. -/
theorem job_goes_on (h : Reachable settings s) (hj : s.jobs[n]? = some j)
    (htracked : j.point.isTracked = true) (hstop : s.cancelled = true) :
    s.GoesOnOrWaits settings (.job n) := by
  have hrequest : s.request settings (.job n) = j.point.request n := by simp [State.request, hj]
  cases hpoint : j.point with
  | begun | opening | sizing | dismissing | absent | ended =>
      rw [hpoint] at htracked
      cases htracked
  | spawned =>
      refine .inl (.turn ?_)
      simp [step, stepActor, State.stepJob, hj, hpoint]
  | queued => exact queued_job_goes_on h hj hpoint hstop
  | gated | readying =>
      refine .inl (.cancelled ?_)
      simp [step, stepActor, State.stepJob, hj, hpoint, hstop]
  | reading =>
      rw [hpoint] at hrequest
      refine .inl (.of_request hrequest (.read n (.error .eof)) fun given hadmits => ?_)
      cases hadmits with
      | read => simp [step, stepActor, State.stepJob, hj, hpoint]
  | submitting batch => exact submitting_job_goes_on h hj hpoint hstop
  | closing result =>
      rw [hpoint] at hrequest
      refine .inl (.of_request hrequest (.closed n (.ok ())) fun given hadmits => ?_)
      cases hadmits with
      | closed => simp [step, stepActor, State.stepJob, hj, hpoint]

/-- The hooks after the import wait for the outside. -/
theorem hooks_go_on {run : HookRun} (hcell : s.stopCell = .running (.hooks run)) :
    s.CanGoOn settings .stopper := by
  have hrequest : s.request settings .stopper = hookRequest run := by simp [State.request, hcell]
  have hreceives {given : Answer} (h : (run.receive settings.graphName .after given).isSome) :
      (step settings s (.answer .stopper given)).isSome = true := by
    simpa [step, stepActor, State.stepStop, hcell] using h
  cases run with
  | acquiring rest =>
      refine .of_request hrequest (.clientOpened (.ok ())) fun given hadmits => hreceives ?_
      cases hadmits with
      | clientOpened result => cases result <;> rfl
  | sending statement rest =>
      refine .of_request hrequest (.hooked statement (.ok (.failure "")))
        fun given hadmits => hreceives ?_
      cases hadmits with
      | hooked => rfl
  | pausing client duration rest =>
      refine .of_request hrequest (.elapsed duration) fun given hadmits => hreceives ?_
      cases hadmits with
      | elapsed => rfl
  | closing result =>
      refine .of_request hrequest (.clientClosed (.ok ())) fun given hadmits => hreceives ?_
      cases hadmits with
      | clientClosed result => cases result <;> rfl

/-- Stopping goes on, or waits for a job, a task or the progress reports. -/
theorem stopper_goes_on (h : Reachable settings s) {point : StopPoint}
    (hcell : s.stopCell = .running point) :
    s.GoesOnOrWaits settings .stopper := by
  have hdrained := State.drained_of_reachable h
  have hheeded := heeded_of_reachable h
  have hphase := hdrained.phase
  rw [hcell] at hphase
  cases point with
  | begun =>
      refine .inl (.turn ?_)
      simp [step, stepActor, State.stepStop, hcell]
  | drainingReaders since =>
      have hwatched := hheeded.readers (by simp [hcell, stopStage])
      cases hempty : s.readers.hasDrained since with
      | true =>
          refine .inl (.turn ?_)
          simp [step, stepActor, State.stepStop, hcell, hempty]
      | false =>
          have hcount := tracked_of_blocked hwatched hempty
          rw [hdrained.jobs] at hcount
          obtain ⟨j, hj, htracked⟩ := List.countP_pos_iff.mp hcount
          obtain ⟨n, hj⟩ := List.mem_iff_getElem?.mp hj
          exact .inr ⟨.job n, .drainingReaders since n j hcell hempty hj htracked,
            .job n j hj htracked hphase.1⟩
  | drainingImporters since =>
      have hwatched := hheeded.importers (by simp [hcell, stopStage])
      cases hempty : s.importers.hasDrained since with
      | true =>
          refine .inl (.turn ?_)
          simp [step, stepActor, State.stepStop, hcell, hempty]
      | false =>
          have hcount := tracked_of_blocked hwatched hempty
          rw [hdrained.tasks.tracked] at hcount
          obtain ⟨k, t, ht⟩ := exists_task hcount
          exact .inr ⟨.task k, .drainingImporters since k t hcell hempty ht, .task k t ht⟩
  | collecting jobs failed =>
      cases jobs with
      | nil =>
          refine .inl (.turn ?_)
          simp [step, stepActor, State.stepStop, hcell]
      | cons n rest =>
          have hawaited : n ∈ s.awaited := by simp [State.awaited, hcell]
          obtain ⟨j, hj, hregistered⟩ := hheeded.awaited n hawaited
          rcases tracked_or_ended hregistered with htracked | ⟨result, hended⟩
          · exact .inr ⟨.job n, .collecting n rest failed j hcell hj htracked,
              .job n j hj htracked hphase.1⟩
          · refine .inl (.turn ?_)
            simp [step, stepActor, State.stepStop, hcell, hj, hended]
  | joining =>
      have hsome := hheeded.joining hcell
      cases hreporter : s.reporter with
      | none => exact absurd hreporter hsome
      | some point =>
          cases point with
          | ended =>
              refine .inl (.turn ?_)
              simp [step, stepActor, State.stepStop, hcell, hreporter]
          | first =>
              exact .inr ⟨.reporter, .joining hcell (by simp [hreporter]),
                .reporter (.inl hreporter) hphase.1⟩
          | ticking =>
              exact .inr ⟨.reporter, .joining hcell (by simp [hreporter]),
                .reporter (.inr hreporter) hphase.1⟩
  | hooks run => exact .inl (hooks_go_on hcell)
  | closing result =>
      have hrequest : s.request settings .stopper = .closePool := by simp [State.request, hcell]
      refine .inl (.of_request hrequest (.poolClosed (.ok ())) fun given hadmits => ?_)
      cases hadmits with
      | poolClosed => simp [step, stepActor, State.stepStop, hcell]

/-- The progress reports begin, or hear that the run is being stopped. -/
theorem reporter_goes_on (h : s.reporter = some .first ∨ s.reporter = some .ticking)
    (hstop : s.cancelled = true) : s.CanGoOn settings .reporter := by
  rcases h with hfirst | hticking
  · refine .turn ?_
    simp [step, stepActor, State.stepReporter, hfirst]
  · refine .cancelled ?_
    simp [step, stepActor, State.stepReporter, hticking, hstop]

/-- A call that stops the run goes on, or waits for the body of stopping. -/
theorem caller_goes_on (h : Reachable settings s) (hc : s.calls[k]? = some c)
    (hstopping : c.isStopping = true) :
    s.GoesOnOrWaits settings (.caller k) := by
  have hmem := List.mem_of_getElem? hc
  have hwish : c.wish ≠ .start := by
    intro hstart
    simp [Call.isStopping, hstart] at hstopping
  have hawaits (hpoint : c.point = .awaiting) :
      s.GoesOnOrWaits settings (.caller k) := by
    cases hcell : s.stopCell with
    | idle => exact absurd hcell ((shared_of_reachable h).awaiting c hmem hwish hpoint)
    | running point => exact .inr ⟨.stopper, .called k c point hc hpoint hwish hcell,
        .stopper point hcell⟩
    | done result =>
        refine .inl (.turn ?_)
        rw [step_of_awaiting hc hwish hpoint hcell]
        rfl
  cases hwish' : c.wish with
  | start => exact absurd hwish' hwish
  | stop =>
      rcases (heeded_of_reachable h).calls c hmem hwish' with hpoint | hpoint | hreturned
      · refine .inl (.turn ?_)
        simp [step, stepActor, State.stepCall, hc, hpoint, hwish']
      · exact hawaits hpoint
      · simp [Call.isStopping, hwish', hreturned] at hstopping
  | wait =>
      cases hpoint : c.point with
      | awaiting => exact hawaits hpoint
      | begun | drainingReaders | drainingImporters | returned =>
          simp [Call.isStopping, hwish', hpoint] at hstopping

/-- Whoever holds stopping up can go on, or waits for another who holds it up. -/
theorem goes_on_or_waits (h : Reachable settings s) (hup : s.HoldsUp actor) :
    s.GoesOnOrWaits settings actor := by
  cases hup with
  | job n j hj htracked hstop => exact job_goes_on h hj htracked hstop
  | task n t ht => exact .inl (task_goes_on ht)
  | reporter hreporter hstop => exact .inl (reporter_goes_on hreporter hstop)
  | stopper point hcell => exact stopper_goes_on h hcell
  | caller k c hc hstopping => exact caller_goes_on h hc hstopping

/-! ## Stopping is never stuck -/

/-- Whoever holds stopping up can go on, or waits, directly or through others, for somebody who
can. -/
theorem goes_on_of_holding_up (h : Reachable settings s) (hup : s.HoldsUp actor) :
    ∃ other, Relation.ReflTransGen s.WaitsFor actor other ∧ s.CanGoOn settings other := by
  -- Induction on the rank: every wait leads to somebody of a lower one.
  induction hrank : s.rank actor using Nat.strongRecOn generalizing actor with
  | ind rank ih =>
      rcases goes_on_or_waits h hup with hgoes | ⟨middle, hwaits, hmiddle⟩
      · exact ⟨actor, .refl, hgoes⟩
      · have hlower : s.rank middle < rank :=
          hrank ▸ rank_of_waiting (staffed_of_reachable h) hwaits
        obtain ⟨other, hchain, hgoes⟩ := ih _ hlower hmiddle rfl
        exact ⟨other, .head hwaits hchain, hgoes⟩

/-- As long as a call that stops the run has not returned, it can go on, or it waits, directly or
through others, for somebody who can. -/
theorem goes_on_of_stopping (h : Reachable settings s) (hc : s.calls[k]? = some c)
    (hstopping : c.isStopping = true) :
    ∃ actor, Relation.ReflTransGen s.WaitsFor (.caller k) actor ∧ s.CanGoOn settings actor :=
  goes_on_of_holding_up h (.caller k c hc hstopping)

end

/-! ## Stopping a jammed run -/

namespace Jammed

/-- There is a single reader. -/
def settings : Settings := { Sample.settings with readerConcurrency := 1 }

/-- Two sources are imported, and the run is started and stopped. The job of the first has the
reader and waits for an importer that is never ready, and the job of the second waits for the
reader. -/
def labels : List Label := [
  .import "people" Sample.importers, .answer (.job 0) .go, .answer (.job 0) (.source (.ok ())),
  .answer (.job 0) (.size (.ok 8)), .import "places" Sample.importers, .answer (.job 1) .go,
  .answer (.job 1) (.source (.ok ())), .answer (.job 1) (.size (.ok 8)), .call .start,
  .answer (.caller 0) .go, .answer .starter .go, .answer .starter (.client (.ok ())),
  .answer (.job 0) .go, .answer (.job 0) .go, .answer (.job 0) .go, .answer (.job 1) .go,
  .call .stop, .answer (.caller 1) .go, .answer .stopper .go]

/-- The state in which stopping waits for both jobs. -/
def state : State := (run settings (.initial settings) labels).getD (.initial settings)

end Jammed

/-- Neither stopping nor the job that waits for the reader has a turn, but somebody can go on for
whom the call that stops the run waits. -/
theorem goes_on_of_jammed :
    (step Jammed.settings Jammed.state (.answer .stopper .go)).isNone = true ∧
      (step Jammed.settings Jammed.state (.answer (.job 1) .go)).isNone = true ∧
      ∃ c, Jammed.state.calls[1]? = some c ∧ c.isStopping = true ∧
        ∃ actor, Relation.ReflTransGen Jammed.state.WaitsFor (.caller 1) actor ∧
          Jammed.state.CanGoOn Jammed.settings actor := by
  have hreachable : Reachable Jammed.settings Jammed.state := reachable_run _ _
  have hcall : (Jammed.state.calls[1]?).any Call.isStopping = true := by decide +kernel
  obtain ⟨c, hc, hstopping⟩ := (Option.any_eq_true _ _).mp hcall
  exact ⟨by decide +kernel, by decide +kernel, c, hc, hstopping,
    goes_on_of_stopping hreachable hc hstopping⟩

end BulkLoad.Manager
