import BulkLoad.Proofs.Manager.Waiting
import BulkLoad.Proofs.WorkerPool.Staff

/-!
# Who has the workers of a run

To the readers a job is a task: it waits for a worker, runs with it or without, and finishes
(`Job.phase`). To the importers a job with a batch is the submitter of a task. `Staffed` says for
both pools that every worker is free or held, and that those who wait are in the queue; it holds in
every reachable state (`staffed_of_reachable`). So whoever waits for a worker waits for somebody who
has one, and never for nobody. Workers go in the order of the tickets (`granted_in_order`), and
nobody takes the worker that another may have (`may_of_others`).
-/

namespace BulkLoad.Manager

open WorkerPool (Phase)

/-- Where a job stands as a task of the readers. They know nothing of one that has not been
registered. -/
def Job.phase (j : Job) : Phase :=
  match j.point with
  | .begun | .opening | .sizing | .dismissing _ | .absent => .refused
  | .spawned => .spawned
  | .queued => .queued
  | .gated | .readying _ _ | .reading | .submitting _ | .closing _ => .running j.worker
  | .ended _ => .finished

/-- Whether a job at this point waits for a worker that takes its batch. -/
def JobPoint.isSubmitting : JobPoint → Bool
  | .submitting _ => true
  | .begun | .opening | .sizing | .dismissing _ | .absent | .spawned | .queued | .gated
  | .readying _ _ | .reading | .closing _ | .ended _ => false

/-- The workers of both pools are free or held: those of the readers by jobs, and those of the
importers by tasks. Whoever waits for one is in the queue. -/
structure State.Staffed (settings : Settings) (s : State) : Prop where
  readers : WorkerPool.Staffed settings.readerConcurrency s.readers (s.jobs.map Job.phase)
  importers : s.importers.free + s.importers.tracked = max settings.importerConcurrency 1
  submitting : ∀ n, n ∈ s.importers.queue ↔
    (s.jobs[n]?).any (fun j => j.point.isSubmitting) = true
  distinct : s.importers.queue.Nodup

/-! ## What the actors change -/

/-- What a step of job `n`, which is `j`, does to the workers: nothing, or the job enters the
readers, asks for a worker of them, gets it or leaves them, or it comes to hold a batch, hands it to
a task, or has it rejected. -/
inductive WorkerEffect (s next : State) (n : Nat) (j after : Job) : Prop where
  | stays (hphase : after.phase = j.phase)
      (hsubmitting : after.point.isSubmitting = j.point.isSubmitting)
      (hreaders : next.readers = s.readers) (himporters : next.importers = s.importers)
  | enters (hbefore : j.phase = .refused) (hafter : after.phase = .spawned)
      (hsubmitting : after.point.isSubmitting = j.point.isSubmitting)
      (hreaders : next.readers = s.readers.accept) (himporters : next.importers = s.importers)
  | asks (hbefore : j.phase = .spawned) (hafter : after.phase = .queued)
      (hsubmitting : after.point.isSubmitting = j.point.isSubmitting)
      (hreaders : next.readers = s.readers.enqueue n) (himporters : next.importers = s.importers)
  | granted (hbefore : j.phase = .queued) (hafter : after.phase = .running (!s.readers.closed))
      (hsubmitting : after.point.isSubmitting = j.point.isSubmitting)
      (hmay : s.readers.mayProceed n = true) (hreaders : next.readers = s.readers.grant n)
      (himporters : next.importers = s.importers)
  | leaves (hbefore : j.phase = .running j.worker) (hafter : after.phase = .finished)
      (hsubmitting : after.point.isSubmitting = j.point.isSubmitting)
      (hreaders : next.readers = s.readers.finish j.worker)
      (himporters : next.importers = s.importers)
  | holds (hphase : after.phase = j.phase) (hbefore : j.point.isSubmitting = false)
      (hafter : after.point.isSubmitting = true) (hreaders : next.readers = s.readers)
      (himporters : next.importers = s.importers.enqueue n)
  | hands (hphase : after.phase = j.phase) (hafter : after.point.isSubmitting = false)
      (hreaders : next.readers = s.readers) (hopen : s.importers.closed = false)
      (hmay : s.importers.mayProceed n = true)
      (himporters : next.importers = (s.importers.grant n).accept)
  | withdraws (hphase : after.phase = j.phase) (hafter : after.point.isSubmitting = false)
      (hreaders : next.readers = s.readers) (himporters : next.importers = s.importers.refuse n)

section

variable {settings : Settings} {s next : State} {n : Nat} {j : Job} {label : Label}
  {answer : Answer}

/-- A job that goes on runs as before and holds no batch. -/
theorem GoesOn.workers {importers : List Importer} (h : GoesOn s n j importers next) :
    next.readers = s.readers ∧ next.importers = s.importers ∧ ∃ change : Job → Job,
      next.jobs = s.jobs.modify n change ∧ (change j).phase = .running j.worker ∧
        (change j).point.isSubmitting = false := by
  cases h with
  | readying | reading | stopping => exact ⟨rfl, rfl, _, rfl, rfl, rfl⟩

/-- A job that goes on without a batch leaves the workers alone. -/
theorem GoesOn.worker_effect {importers : List Importer} {base : State}
    (h : GoesOn base n j importers next) (hjobs : base.jobs = s.jobs)
    (hreaders : base.readers = s.readers) (himporters : base.importers = s.importers)
    (hphase : j.phase = .running j.worker) (hsubmitting : j.point.isSubmitting = false) :
    ∃ change : Job → Job, next.jobs = s.jobs.modify n change ∧
      WorkerEffect s next n j (change j) := by
  obtain ⟨hr, hi, change, hchange, hafter, hidle⟩ := h.workers
  exact ⟨change, hjobs ▸ hchange, .stays (hafter.trans hphase.symm) (hidle.trans hsubmitting.symm)
    (hr.trans hreaders) (hi.trans himporters)⟩

/-- Every step of a job has such an effect. -/
theorem JobStep.worker_effect (h : JobStep settings s n j answer next) :
    ∃ change : Job → Job, next.jobs = s.jobs.modify n change ∧
      WorkerEffect s next n j (change j) := by
  have hphase {point : JobPoint} (hpoint : j.point = point) :
      j.phase = Job.phase { j with point } := by
    rw [← hpoint]
  cases h with
  | skipped hpoint | refused hpoint | opening hpoint | opened hpoint | unopened _ hpoint
  | unregistered _ _ hpoint | unsized _ hpoint | dismissed _ _ _ hpoint | drained hpoint
  | failed _ hpoint =>
      exact ⟨_, rfl, .stays (hphase hpoint).symm (by rw [hpoint]; rfl) rfl rfl⟩
  | cancelled hpoint =>
      refine ⟨_, rfl, ?_⟩
      rcases hpoint with hpoint | ⟨importer, rest, hpoint⟩ <;>
        exact .stays (hphase hpoint).symm (by rw [hpoint]; rfl) rfl rfl
  | registered _ hpoint =>
      exact ⟨_, rfl, .enters (hphase hpoint) rfl (by rw [hpoint]; rfl) rfl rfl⟩
  | enqueued hpoint =>
      exact ⟨_, rfl, .asks (hphase hpoint) rfl (by rw [hpoint]; rfl) rfl rfl⟩
  | granted hpoint hmay =>
      exact ⟨_, rfl, .granted (hphase hpoint) rfl (by rw [hpoint]; rfl) hmay rfl rfl⟩
  | lost _ hpoint | ended _ _ _ hpoint =>
      exact ⟨_, rfl, .leaves (hphase hpoint) rfl (by rw [hpoint]; rfl) rfl rfl⟩
  | released _ hpoint _ hnext | ready _ _ _ hpoint hnext | readNothing _ _ hpoint hnext =>
      exact hnext.worker_effect rfl rfl rfl (hphase hpoint) (by rw [hpoint]; rfl)
  | readBatch _ _ hpoint =>
      exact ⟨_, rfl, .holds (hphase hpoint).symm (by rw [hpoint]; rfl) rfl rfl rfl⟩
  | submitted batch _ hpoint hmay hopen hnext =>
      obtain ⟨hreaders, himporters, change, hjobs, hafter, hidle⟩ := hnext.workers
      exact ⟨change, hjobs, .hands (hafter.trans (hphase hpoint).symm) hidle hreaders hopen hmay
        himporters⟩
  | rejected batch lines _ hpoint _ hnext =>
      obtain ⟨hreaders, himporters, change, hjobs, hafter, hidle⟩ := hnext.workers
      exact ⟨change, hjobs, .withdraws (hafter.trans (hphase hpoint).symm) hidle hreaders
        himporters⟩

/-- What starting, stopping and calls do to the pools: nothing, or one of them is watched from now
on, or both are closed. They leave the jobs alone. -/
inductive WatchEffect (s next : State) : Prop where
  | same (hjobs : next.jobs = s.jobs) (hreaders : next.readers = s.readers)
      (himporters : next.importers = s.importers)
  | readers (hjobs : next.jobs = s.jobs) (hreaders : next.readers = s.readers.watch)
      (himporters : next.importers = s.importers)
  | importers (hjobs : next.jobs = s.jobs) (hreaders : next.readers = s.readers)
      (himporters : next.importers = s.importers.watch)
  | both (hjobs : next.jobs = s.jobs) (hreaders : next.readers = s.readers.close)
      (himporters : next.importers = s.importers.close)

/-- Starting leaves the pools alone. -/
theorem StartStep.watch_effect (h : StartStep settings s answer next) : WatchEffect s next := by
  cases h with
  | stopped | opened | unopened => exact .same rfl rfl rfl
  | begun progress events | hooked _ _ progress events =>
      obtain ⟨hrun, -⟩ :=
        (s.recordHooks .before events).after_start_hooks_same settings.graphName progress
      exact .same hrun.jobs hrun.readers hrun.importers

/-- Stopping watches the pools one after the other and closes both. -/
theorem StopStep.watch_effect (h : StopStep settings s answer next) : WatchEffect s next := by
  have hhooks (base : State) (hjobs : base.jobs = s.jobs) (hreaders : base.readers = s.readers)
      (himporters : base.importers = s.importers) (progress : HookProgress) :
      WatchEffect s (base.afterStopHooks settings.graphName progress) := by
    obtain ⟨hrun, -⟩ := base.after_stop_hooks_same settings.graphName progress
    exact .same (hrun.jobs.trans hjobs) (hrun.readers.trans hreaders)
      (hrun.importers.trans himporters)
  cases h with
  | begun => exact .readers rfl rfl rfl
  | readersDrained => exact .importers rfl rfl rfl
  | importersDrained => exact .both rfl rfl rfl
  | collected | joining => exact .same rfl rfl rfl
  | unhooked lines =>
      exact hhooks ((s.report lines).recordHooks .after (HookRun.begin settings.hooks.after).2) rfl
        rfl rfl _
  | hooked run answer progress events => exact hhooks (s.recordHooks .after events) rfl rfl rfl _
  | closed result outcome => cases outcome <;> exact .same rfl rfl rfl

/-- Calling for a body leaves the importers alone. -/
theorem importers_enter (s : State) (k : Nat) (wish : Wish) :
    (s.enter k wish).importers = s.importers := by
  simp only [State.enter]
  split <;> rfl

/-- A call may have the pools watched. -/
theorem CallStep.watch_effect {c : Call} (h : CallStep s n c next) : WatchEffect s next := by
  cases h with
  | waiting => exact .readers rfl rfl rfl
  | readersDrained => exact .importers rfl rfl rfl
  | answered => exact .same rfl rfl rfl
  | entered | importersDrained =>
      exact .same (enter_effect s n c.wish).jobs (readers_enter s n c.wish)
        (importers_enter s n c.wish)

/-! ## The invariant -/

/-- The phases of the jobs after one of them has changed. -/
theorem phases_modify {change : Job → Job} (hj : s.jobs[n]? = some j)
    (hjobs : next.jobs = s.jobs.modify n change) :
    next.jobs.map Job.phase = (s.jobs.map Job.phase).set n (change j).phase := by
  obtain ⟨hn, -⟩ := List.getElem?_eq_some_iff.mp hj
  obtain ⟨before, other, after, hsplit, rfl, hmodify⟩ := List.exists_of_modify change hn
  rw [hsplit, List.getElem?_append_right (Nat.le_refl _), Nat.sub_self] at hj
  obtain rfl : other = j := by simpa using hj
  rw [hjobs, hmodify, hsplit, List.map_append, List.map_append,
    List.set_append_right _ _ (by simp)]
  simp

/-- Which jobs hold a batch after one of them has changed. -/
theorem submitting_modify {change : Job → Job} (hj : s.jobs[n]? = some j)
    (hjobs : next.jobs = s.jobs.modify n change) (k : Nat) :
    (next.jobs[k]?).any (fun j => j.point.isSubmitting) =
      if k = n then (change j).point.isSubmitting
      else (s.jobs[k]?).any fun j => j.point.isSubmitting := by
  by_cases hk : k = n
  · subst hk
    rw [hjobs, modified_at change hj, if_pos rfl]
    rfl
  · rw [hjobs, List.getElem?_modify_ne _ _ (Ne.symm hk), if_neg hk]

namespace State

/-- Where the jobs are the same and nothing is done to the workers, they are staffed as before. -/
theorem Staffed.same (h : s.Staffed settings) (hjobs : next.jobs = s.jobs)
    (hreaders : WorkerPool.Staffed settings.readerConcurrency next.readers (s.jobs.map Job.phase))
    (hfree : next.importers.free = s.importers.free)
    (htracked : next.importers.tracked = s.importers.tracked)
    (hqueue : next.importers.queue = s.importers.queue) : next.Staffed settings where
  readers := hjobs ▸ hreaders
  importers := by rw [hfree, htracked, h.importers]
  submitting := by
    rw [hjobs, hqueue]
    exact h.submitting
  distinct := hqueue ▸ h.distinct

/-- A job keeps the workers free or held. -/
theorem Staffed.job (h : s.Staffed settings) (hj : s.jobs[n]? = some j) {change : Job → Job}
    (hjobs : next.jobs = s.jobs.modify n change)
    (heffect : WorkerEffect s next n j (change j)) : next.Staffed settings := by
  have hphases := phases_modify hj hjobs
  have hbefore : (s.jobs.map Job.phase)[n]? = some j.phase := by simp [hj]
  -- A job whose phase stays the same leaves the phases as they are.
  have hsame (hphase : (change j).phase = j.phase) :
      next.jobs.map Job.phase = s.jobs.map Job.phase := by
    obtain ⟨hlt, hsame⟩ := List.getElem?_eq_some_iff.mp hbefore
    rw [hphases, hphase, ← hsame, List.set_getElem_self]
  have hsubmits := submitting_modify hj hjobs
  have hholds : n ∈ s.importers.queue ↔ j.point.isSubmitting = true := by
    rw [h.submitting, hj]
    rfl
  have hkept (hsubmitting : (change j).point.isSubmitting = j.point.isSubmitting) (k : Nat) :
      k ∈ s.importers.queue ↔ (next.jobs[k]?).any (fun j => j.point.isSubmitting) = true := by
    rw [hsubmits, hsubmitting]
    by_cases hk : k = n
    · subst hk
      simp [hholds]
    · simp [hk, h.submitting]
  -- A job that gives up its batch leaves the queue.
  have hleft (hafter : (change j).point.isSubmitting = false) (k : Nat) :
      k ∈ s.importers.queue.erase n ↔
        (next.jobs[k]?).any (fun j => j.point.isSubmitting) = true := by
    rw [h.distinct.mem_erase_iff, hsubmits]
    by_cases hk : k = n <;> simp [hk, hafter, h.submitting]
  cases heffect with
  | stays hphase hsubmitting hreaders himporters =>
      refine ⟨?_, himporters ▸ h.importers, himporters ▸ hkept hsubmitting,
        himporters ▸ h.distinct⟩
      rw [hsame hphase, hreaders]
      exact h.readers
  | enters hunknown hafter hsubmitting hreaders himporters =>
      refine ⟨?_, himporters ▸ h.importers, himporters ▸ hkept hsubmitting,
        himporters ▸ h.distinct⟩
      rw [hphases, hafter, hreaders]
      rw [hunknown] at hbefore
      exact h.readers.turned _ _ hbefore rfl rfl (h.readers.mem_queue hbefore rfl rfl)
        h.readers.distinct fun hopen => ⟨hopen, nofun⟩
  | asks hspawned hafter hsubmitting hreaders himporters =>
      refine ⟨?_, himporters ▸ h.importers, himporters ▸ hkept hsubmitting,
        himporters ▸ h.distinct⟩
      rw [hphases, hafter, hreaders]
      rw [hspawned] at hbefore
      exact h.readers.enqueued _ hbefore rfl rfl rfl rfl rfl rfl
  | granted hqueued hafter hsubmitting hmay hreaders himporters =>
      refine ⟨?_, himporters ▸ h.importers, himporters ▸ hkept hsubmitting,
        himporters ▸ h.distinct⟩
      rw [hphases, hafter, hreaders]
      rw [hqueued] at hbefore
      exact h.readers.granted hbefore hmay
  | leaves hruns hafter hsubmitting hreaders himporters =>
      refine ⟨?_, himporters ▸ h.importers, himporters ▸ hkept hsubmitting,
        himporters ▸ h.distinct⟩
      rw [hphases, hafter, hreaders]
      rw [hruns] at hbefore
      exact h.readers.finished hbefore
  | holds hphase hidle hafter hreaders himporters =>
      have hnew : n ∉ s.importers.queue := by simp [hholds, hidle]
      refine ⟨?_, himporters ▸ h.importers, ?_, ?_⟩
      · rw [hsame hphase, hreaders]
        exact h.readers
      · intro k
        rw [himporters, hsubmits, hafter]
        show k ∈ s.importers.queue ++ [n] ↔ _
        by_cases hk : k = n <;> simp [hk, h.submitting]
      · rw [himporters]
        show (s.importers.queue ++ [n]).Nodup
        rw [← List.concat_eq_append]
        exact List.Nodup.concat hnew h.distinct
  | hands hphase hafter hreaders hopen hmay himporters =>
      have hfree := WorkerPool.grant_free hmay
      refine ⟨?_, ?_, himporters ▸ hleft hafter, himporters ▸ h.distinct.erase n⟩
      · rw [hsame hphase, hreaders]
        exact h.readers
      · have hworkers := h.importers
        rw [himporters]
        simp only [hopen, Bool.not_false, Bool.toNat_true] at hfree
        show (s.importers.grant n).free + (s.importers.tracked + 1) = _
        omega
  | withdraws hphase hafter hreaders himporters =>
      refine ⟨?_, himporters ▸ h.importers, himporters ▸ hleft hafter,
        himporters ▸ h.distinct.erase n⟩
      rw [hsame hphase, hreaders]
      exact h.readers

/-- A job that joins is unknown to the readers and holds no batch. -/
theorem Staffed.import (h : s.Staffed settings) (sourceName : String)
    (importers : List Importer) :
    ({ s with jobs := s.jobs ++ [{ sourceName, importers }] } : State).Staffed settings where
  readers := by
    have hjoined := h.readers.joined s.readers .refused rfl (by simp) rfl rfl rfl
      (by simp [Phase.isWaiting])
    show WorkerPool.Staffed _ s.readers ((s.jobs ++ [_]).map Job.phase)
    rw [List.map_append]
    exact hjoined
  importers := h.importers
  submitting := by
    intro n
    rw [h.submitting]
    show _ ↔ ((s.jobs ++ [_])[n]?).any _ = true
    rw [WorkerPool.get_joined]
    by_cases hn : n = s.jobs.length
    · subst hn
      simp [JobPoint.isSubmitting]
    · rw [if_neg hn]
  distinct := h.distinct

/-- A task that is over gives back its worker. -/
theorem Staffed.task (h : s.Staffed settings) {k : Nat} {t : Task} (htasks : s.TasksCounted)
    (ht : s.tasks.lookup k = some t) (heffect : TaskEffect s next k) : next.Staffed settings := by
  have hreaders : WorkerPool.Staffed settings.readerConcurrency next.readers
      (s.jobs.map Job.phase) := heffect.readers ▸ h.readers
  rcases heffect.tasks with ⟨-, himporters⟩ | ⟨-, himporters⟩
  · exact h.same heffect.jobs hreaders (by rw [himporters]) (by rw [himporters])
      (by rw [himporters])
  · have hpos : 0 < s.importers.tracked := by
      rw [htasks.tracked]
      refine List.length_pos_of_ne_nil ?_
      intro hnone
      rw [hnone] at ht
      cases ht
    have hworkers := h.importers
    refine ⟨heffect.jobs ▸ hreaders, ?_, ?_, ?_⟩
    · rw [himporters, WorkerPool.finish_free, WorkerPool.finish_tracked, Bool.toNat_true]
      omega
    · rw [himporters, WorkerPool.finish_queue, heffect.jobs]
      exact h.submitting
    · rw [himporters, WorkerPool.finish_queue]
      exact h.distinct

/-- Watching and closing the pools keeps the workers free or held. -/
theorem Staffed.watch (h : s.Staffed settings) (heffect : WatchEffect s next) :
    next.Staffed settings := by
  cases heffect with
  | same hjobs hreaders himporters =>
      exact h.same hjobs (hreaders ▸ h.readers) (by rw [himporters]) (by rw [himporters])
        (by rw [himporters])
  | readers hjobs hreaders himporters =>
      exact h.same hjobs (hreaders ▸ h.readers.watch) (by rw [himporters]) (by rw [himporters])
        (by rw [himporters])
  | importers hjobs hreaders himporters =>
      exact h.same hjobs (hreaders ▸ h.readers) (by rw [himporters, WorkerPool.watch_free])
        (by rw [himporters, WorkerPool.watch_tracked]) (by rw [himporters, WorkerPool.watch_queue])
  | both hjobs hreaders himporters =>
      exact h.same hjobs (hreaders ▸ h.readers.close) (by rw [himporters, WorkerPool.close_free])
        (by rw [himporters, WorkerPool.close_tracked]) (by rw [himporters, WorkerPool.close_queue])

/-- Every transition keeps the workers free or held. -/
theorem Staffed.transition (h : s.Staffed settings) (htasks : s.TasksCounted)
    (hstep : Transition settings s label next) : next.Staffed settings := by
  cases hstep with
  | «import» sourceName importers => exact h.import sourceName importers
  | call | clock => exact h.same rfl h.readers rfl rfl rfl
  | job n j answer _ hj hstep =>
      obtain ⟨change, hjobs, heffect⟩ := hstep.worker_effect
      exact h.job hj hjobs heffect
  | task n t answer _ ht hstep => exact h.task htasks ht hstep.effect.2
  | start answer _ hstep => exact h.watch hstep.watch_effect
  | stop answer _ hstep => exact h.watch hstep.watch_effect
  | report answer _ hstep =>
      cases hstep with
      | ticked | ended => exact h.same rfl h.readers rfl rfl rfl
  | caller n c _ hc hstep => exact h.watch hstep.watch_effect

end State

/-- In every reachable state the workers are free or held. -/
theorem staffed_of_reachable (h : Reachable settings s) : s.Staffed settings := by
  induction h with
  | initial =>
      exact ⟨.of_empty _ _, rfl, by simp [State.initial, WorkerPool.of], List.nodup_nil⟩
  | step label h hstep ih =>
      exact ih.transition (State.drained_of_reachable h).tasks (transition_of_step hstep)

/-! ## The order of the tickets -/

/-- When a job gets a worker of the readers, whoever has a ticket before it may have one as well,
and still may afterwards. -/
theorem granted_in_order (hpoint : j.point = .queued) (hstep : JobStep settings s n j .go next)
    {k : Nat} (hk : k ∈ s.readers.queue)
    (hbefore : s.readers.queue.idxOf k < s.readers.queue.idxOf n) :
    next.readers.mayProceed k = true := by
  cases hstep with
  | granted _ hmay =>
      have hfirst := WorkerPool.may_of_before hmay hk (Nat.le_of_lt hbefore)
      refine WorkerPool.may_of_grant hfirst hmay ?_
      rintro rfl
      exact Nat.lt_irrefl _ hbefore
  | skipped hother | refused hother | opening hother | enqueued hother | released _ hother
  | submitted _ _ hother | rejected _ _ _ hother =>
      rw [hpoint] at hother
      cases hother

/-- Whoever may have a worker keeps that until it goes on, whatever the others do. -/
theorem may_of_others (hstep : Transition settings s label next)
    (hlabel : label.actor? ≠ some (.job n)) :
    (s.readers.mayProceed n = true → next.readers.mayProceed n = true) ∧
      (s.importers.mayProceed n = true → next.importers.mayProceed n = true) := by
  have hfinish {p : WorkerPool} (worker : Bool) (h : p.mayProceed n = true) :
      (p.finish worker).mayProceed n = true := by
    refine WorkerPool.may_of_same h (WorkerPool.finish_queue _ _) (by simp) ?_
    rw [WorkerPool.finish_free]
    omega
  have hwatch {p : WorkerPool} (h : p.mayProceed n = true) : p.watch.mayProceed n = true :=
    WorkerPool.may_of_same h (WorkerPool.watch_queue p) (by simp)
      (Nat.le_of_eq (WorkerPool.watch_free p).symm)
  have hclose {p : WorkerPool} (h : p.mayProceed n = true) : p.close.mayProceed n = true :=
    WorkerPool.may_of_same h (WorkerPool.close_queue p) (by simp)
      (Nat.le_of_eq (WorkerPool.close_free p).symm)
  have hwatched (heffect : WatchEffect s next) :
      (s.readers.mayProceed n = true → next.readers.mayProceed n = true) ∧
        (s.importers.mayProceed n = true → next.importers.mayProceed n = true) := by
    cases heffect with
    | same _ hreaders himporters => exact ⟨hreaders ▸ id, himporters ▸ id⟩
    | readers _ hreaders himporters => exact ⟨hreaders ▸ hwatch, himporters ▸ id⟩
    | importers _ hreaders himporters => exact ⟨hreaders ▸ id, himporters ▸ hwatch⟩
    | both _ hreaders himporters => exact ⟨hreaders ▸ hclose, himporters ▸ hclose⟩
  cases hstep with
  | «import» | call | clock => exact ⟨id, id⟩
  | job m j answer _ hj hstep =>
      have hne : n ≠ m := fun hsame => hlabel (hsame ▸ rfl)
      obtain ⟨change, -, heffect⟩ := hstep.worker_effect
      cases heffect with
      | stays _ _ hreaders himporters => exact ⟨hreaders ▸ id, himporters ▸ id⟩
      | enters _ _ _ hreaders himporters => exact ⟨hreaders ▸ id, himporters ▸ id⟩
      | asks _ _ _ hreaders himporters =>
          exact ⟨hreaders ▸ WorkerPool.may_of_enqueue, himporters ▸ id⟩
      | granted _ _ _ hmay hreaders himporters =>
          exact ⟨fun h => hreaders ▸ WorkerPool.may_of_grant h hmay hne, himporters ▸ id⟩
      | leaves _ _ _ hreaders himporters => exact ⟨hreaders ▸ hfinish j.worker, himporters ▸ id⟩
      | holds _ _ _ hreaders himporters =>
          exact ⟨hreaders ▸ id, himporters ▸ WorkerPool.may_of_enqueue⟩
      | hands _ _ hreaders _ hmay himporters =>
          exact ⟨hreaders ▸ id, fun h => himporters ▸ WorkerPool.may_of_grant h hmay hne⟩
      | withdraws _ _ hreaders himporters =>
          exact ⟨hreaders ▸ id, fun h => himporters ▸ WorkerPool.may_of_refuse h hne⟩
  | task m t answer _ ht hstep =>
      have heffect := hstep.effect.2
      refine ⟨heffect.readers ▸ id, ?_⟩
      rcases heffect.tasks with ⟨-, himporters⟩ | ⟨-, himporters⟩
      · exact himporters ▸ id
      · exact himporters ▸ hfinish true
  | start answer _ hstep => exact hwatched hstep.watch_effect
  | stop answer _ hstep => exact hwatched hstep.watch_effect
  | report answer _ hstep =>
      cases hstep with
      | ticked | ended => exact ⟨id, id⟩
  | caller m c _ hc hstep => exact hwatched hstep.watch_effect

end

end BulkLoad.Manager
