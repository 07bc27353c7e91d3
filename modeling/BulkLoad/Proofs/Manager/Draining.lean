import BulkLoad.Proofs.Manager.Transition
import BulkLoad.Proofs.WorkerPool

/-!
# Stopping drains the run

Stopping cancels all reading, waits for the readers and then for the importers to be idle, and only
then closes both pools. `Drained` says what each of its points may rely on: once the readers have
been idle after the cancellation no job reads or holds a batch any more, and once the importers have
been idle after that no task is under way. Hence no batch is ever rejected (`open_of_submitting`),
and nothing is under way when stopping is done (`over`).
-/

namespace BulkLoad.Manager

/-- Whether the readers keep count of a job at this point. -/
def JobPoint.isTracked : JobPoint → Bool
  | .spawned | .queued | .gated | .readying _ _ | .reading | .submitting _ | .closing _ => true
  | .begun | .opening | .sizing | .dismissing _ | .absent | .ended _ => false

/-- Whether a job at this point reads a batch or holds one. -/
def JobPoint.isFetching : JobPoint → Bool
  | .reading | .submitting _ => true
  | _ => false

/-- The readers keep count of a job that reads. -/
theorem tracked_of_fetching {point : JobPoint} (h : point.isFetching = true) :
    point.isTracked = true := by
  cases point with
  | reading | submitting => rfl
  | begun | opening | sizing | dismissing | absent | spawned | queued | gated | readying | closing
  | ended => cases h

/-- Whether a call at this point has returned. -/
def CallPoint.isReturned : CallPoint → Bool
  | .returned _ => true
  | .begun | .drainingReaders _ | .drainingImporters _ | .awaiting => false

/-- Whether a call that stops the run, or waits for everything to be imported, has returned. -/
def State.stopReturned (s : State) : Bool :=
  s.calls.any fun c => c.wish != .start && c.point.isReturned

/-- No job reads a batch or holds one. -/
def State.Quiet (s : State) : Prop := ∀ j ∈ s.jobs, j.point.isFetching = false

/-! ## What the actors change -/

/-- What the steps of jobs and tasks leave alone. -/
structure SameControl (s next : State) : Prop where
  cancelled : next.cancelled = s.cancelled
  stopCell : next.stopCell = s.stopCell
  calls : next.calls = s.calls
  closed : next.importers.closed = s.importers.closed

/-- What a step of a job does to the tasks: nothing. -/
structure SameTasks (s next : State) : Prop where
  tasks : next.tasks = s.tasks
  nextTask : next.nextTask = s.nextTask
  tracked : next.importers.tracked = s.importers.tracked
  drains : next.importers.drains = s.importers.drains

/-- What a step of job `n`, which is `j`, does to the counts of the pools: the job moves, or it
enters the readers, or leaves them, or hands its batch to a new task. -/
inductive JobEffect (s next : State) (n : Nat) (j : Job) : Prop where
  | moves (change : Job → Job) (hjobs : next.jobs = s.jobs.modify n change)
      (htracked : (change j).point.isTracked = j.point.isTracked)
      (hfetching : (change j).point.isFetching = true →
        j.point.isFetching = true ∨ s.cancelled = false)
      (hreaders : next.readers.tracked = s.readers.tracked)
      (hdrains : next.readers.drains = s.readers.drains) (htasks : SameTasks s next)
  | enters (change : Job → Job) (hjobs : next.jobs = s.jobs.modify n change)
      (hbefore : j.point.isTracked = false) (hafter : (change j).point = .spawned)
      (hreaders : next.readers.tracked = s.readers.tracked + 1)
      (hdrains : next.readers.drains = s.readers.drains) (htasks : SameTasks s next)
  | leaves (change : Job → Job) (hjobs : next.jobs = s.jobs.modify n change)
      (hbefore : j.point.isTracked = true) (hafter : (change j).point.isTracked = false)
      (hreaders : next.readers = s.readers.finish j.worker) (htasks : SameTasks s next)
  | submits (change : Job → Job) (batch : Batch) (task : Task)
      (hjobs : next.jobs = s.jobs.modify n change)
      (hbefore : j.point = .submitting batch) (hafter : (change j).point.isTracked = true)
      (hfetching : (change j).point.isFetching = true → s.cancelled = false)
      (hreaders : next.readers = s.readers)
      (htasks : next.tasks = s.tasks ++ [(s.nextTask, task)])
      (hnext : next.nextTask = s.nextTask + 1)
      (himporters : next.importers.tracked = s.importers.tracked + 1)
      (hidle : next.importers.drains = s.importers.drains)

section

variable {settings : Settings} {s next : State} {n : Nat} {j : Job}

/-- A job that goes on moves to a point at which it reads only if the run is not being stopped. -/
theorem GoesOn.effect {importers : List Importer} (h : GoesOn s n j importers next) :
    SameControl s next ∧ SameTasks s next ∧ next.readers = s.readers ∧
      ∃ change : Job → Job, next.jobs = s.jobs.modify n change ∧
        (change j).point.isTracked = true ∧
        ((change j).point.isFetching = true → s.cancelled = false) := by
  cases h with
  | readying importer rest =>
      exact ⟨⟨rfl, rfl, rfl, rfl⟩, ⟨rfl, rfl, rfl, rfl⟩, rfl, _, rfl, rfl, nofun⟩
  | reading hrun =>
      exact ⟨⟨rfl, rfl, rfl, rfl⟩, ⟨rfl, rfl, rfl, rfl⟩, rfl, _, rfl, rfl, fun _ => hrun⟩
  | stopping hstop =>
      exact ⟨⟨rfl, rfl, rfl, rfl⟩, ⟨rfl, rfl, rfl, rfl⟩, rfl, _, rfl, rfl, nofun⟩

/-- A job leaves the control of the run alone. -/
theorem JobStep.same_control {answer : Answer} (h : JobStep settings s n j answer next) :
    SameControl s next := by
  cases h with
  | skipped | refused | opening | opened | unopened | registered | unregistered | unsized
  | dismissed | enqueued | granted | cancelled | readBatch | drained | failed | lost | ended =>
      exact ⟨rfl, rfl, rfl, rfl⟩
  | released _ _ _ hnext | ready _ _ _ _ hnext | readNothing _ _ _ hnext
  | submitted _ _ _ _ _ hnext | rejected _ _ _ _ _ hnext =>
      obtain ⟨⟨hcancelled, hcell, hcalls, hclosed⟩, -⟩ := hnext.effect
      exact ⟨hcancelled, hcell, hcalls, hclosed⟩

/-- A job that goes on from a point at which it is tracked only moves. -/
theorem GoesOn.moves {importers : List Importer} {base : State}
    (h : GoesOn base n j importers next) (hbefore : j.point.isTracked = true)
    (hjobs : base.jobs = s.jobs) (hcancelled : base.cancelled = s.cancelled)
    (hreaders : base.readers = s.readers) (htasks : SameTasks s base) : JobEffect s next n j := by
  obtain ⟨-, hsame, hnext, change, hchange, htracked, hfetching⟩ := h.effect
  refine .moves change (hjobs ▸ hchange) (htracked.trans hbefore.symm)
    (fun hfetch => .inr (hcancelled ▸ hfetching hfetch)) (by rw [hnext, hreaders])
    (by rw [hnext, hreaders]) ?_
  exact ⟨hsame.tasks.trans htasks.tasks, hsame.nextTask.trans htasks.nextTask,
    hsame.tracked.trans htasks.tracked, hsame.drains.trans htasks.drains⟩

/-- Every step of a job has one of the effects. -/
theorem JobStep.effect {answer : Answer} (h : JobStep settings s n j answer next) :
    JobEffect s next n j := by
  cases h with
  | skipped hpoint | refused hpoint | opening hpoint | opened hpoint | unopened _ hpoint
  | unregistered _ _ hpoint | unsized _ hpoint | dismissed _ _ _ hpoint =>
      exact .moves _ rfl (by rw [hpoint]; rfl) nofun rfl rfl ⟨rfl, rfl, rfl, rfl⟩
  | enqueued hpoint | granted hpoint | readBatch _ _ hpoint | drained hpoint | failed _ hpoint =>
      exact .moves _ rfl (by rw [hpoint]; rfl) (by rw [hpoint]; simp [JobPoint.isFetching]) rfl rfl
        ⟨rfl, rfl, rfl, rfl⟩
  | cancelled hpoint =>
      refine .moves _ rfl ?_ nofun rfl rfl ⟨rfl, rfl, rfl, rfl⟩
      rcases hpoint with hpoint | ⟨importer, rest, hpoint⟩ <;> rw [hpoint] <;> rfl
  | registered size hpoint =>
      exact .enters _ rfl (by rw [hpoint]; rfl) rfl rfl rfl ⟨rfl, rfl, rfl, rfl⟩
  | lost _ hpoint =>
      exact .leaves _ rfl (by rw [hpoint]; rfl) rfl rfl ⟨rfl, rfl, rfl, rfl⟩
  | ended _ _ _ hpoint =>
      exact .leaves _ rfl (by rw [hpoint]; rfl) rfl rfl ⟨rfl, rfl, rfl, rfl⟩
  | released _ hpoint _ hnext =>
      exact hnext.moves (by rw [hpoint]; rfl) rfl rfl rfl ⟨rfl, rfl, rfl, rfl⟩
  | ready _ _ _ hpoint hnext =>
      exact hnext.moves (by rw [hpoint]; rfl) rfl rfl rfl ⟨rfl, rfl, rfl, rfl⟩
  | readNothing _ _ hpoint hnext =>
      exact hnext.moves (by rw [hpoint]; rfl) rfl rfl rfl ⟨rfl, rfl, rfl, rfl⟩
  | rejected batch lines _ hpoint hclosed hnext =>
      exact hnext.moves (by rw [hpoint]; rfl) rfl rfl rfl ⟨rfl, rfl, rfl, rfl⟩
  | submitted batch _ hpoint hmay hopen hnext =>
      obtain ⟨-, hsame, hreaders, change, hjobs, htracked, hfetching⟩ := hnext.effect
      exact .submits change batch (newTask settings n j batch) hjobs hpoint htracked hfetching
        hreaders hsame.tasks hsame.nextTask hsame.tracked hsame.drains

/-- A step of task `k` leaves the jobs and the readers alone, and the task goes on or is over. -/
structure TaskEffect (s next : State) (k : Nat) : Prop where
  jobs : next.jobs = s.jobs
  readers : next.readers = s.readers
  nextTask : next.nextTask = s.nextTask
  tasks : (next.tasks.map Prod.fst = s.tasks.map Prod.fst ∧ next.importers = s.importers) ∨
    (next.tasks = s.tasks.filter (fun (other, _) => other != k) ∧
      next.importers = s.importers.finish true)

/-- Putting a task in place of another keeps their numbers. -/
theorem put_task_numbers (s : State) (k : Nat) (t : Task) :
    (s.putTask k t).tasks.map Prod.fst = s.tasks.map Prod.fst := by
  simp [State.putTask, Function.comp_def]

/-- The conclusion of a portion has such an effect. -/
theorem Concluded.effect {k : Nat} {t : Task} {portion : Portion} {rest : List Portion}
    {outcome : ImportOutcome} (h : Concluded s k t portion rest outcome next) :
    SameControl s next ∧ TaskEffect s next k := by
  cases h with
  | imported =>
      exact ⟨⟨rfl, rfl, rfl, rfl⟩, rfl, rfl, rfl, .inl ⟨put_task_numbers _ _ _, rfl⟩⟩
  | panicked | overflowed =>
      exact ⟨⟨rfl, rfl, rfl, WorkerPool.finish_closed _ _⟩, rfl, rfl, rfl, .inr ⟨rfl, rfl⟩⟩

/-- Every step of a task has such an effect. -/
theorem TaskStep.effect {k : Nat} {t : Task} {answer : Answer}
    (h : TaskStep settings s k t answer next) : SameControl s next ∧ TaskEffect s next k := by
  cases h with
  | settled => exact ⟨⟨rfl, rfl, rfl, WorkerPool.finish_closed _ _⟩, rfl, rfl, rfl, .inr ⟨rfl, rfl⟩⟩
  | sent | resent | rested =>
      exact ⟨⟨rfl, rfl, rfl, rfl⟩, rfl, rfl, rfl, .inl ⟨put_task_numbers _ _ _, rfl⟩⟩
  | planned _ _ _ _ _ _ hnext => exact hnext.effect
  | concluded _ _ _ _ _ _ hnext => exact hnext.effect
  | crashed _ _ _ _ hnext => exact hnext.effect

end

/-! ## The invariant -/

/-- Whether stopping has found both pools empty. -/
def isLate : Cell StopPoint → Bool
  | .idle | .running .begun | .running (.drainingReaders _)
  | .running (.drainingImporters _) => false
  | .running (.collecting _ _) | .running .joining | .running (.hooks _) | .running (.closing _)
  | .done _ => true

/-- What stopping may rely on at its points. -/
def State.StopPhase (s : State) : Cell StopPoint → Prop
  | .idle | .running .begun => s.cancelled = false ∧ s.importers.closed = false
  | .running (.drainingReaders since) =>
      s.cancelled = true ∧ s.importers.closed = false ∧ (since < s.readers.drains → s.Quiet)
  | .running (.drainingImporters since) =>
      s.cancelled = true ∧ s.importers.closed = false ∧ s.Quiet ∧
        (since < s.importers.drains → s.tasks = [])
  | .running (.collecting _ _) | .running .joining | .running (.hooks _) | .running (.closing _)
  | .done _ => s.cancelled = true ∧ s.Quiet ∧ s.tasks = []

/-- The readers keep count of the jobs. -/
def State.JobsCounted (s : State) : Prop :=
  s.readers.tracked = s.jobs.countP fun j => j.point.isTracked

/-- The importers keep count of the tasks, whose numbers are given out one after the other. -/
structure State.TasksCounted (s : State) : Prop where
  tracked : s.importers.tracked = s.tasks.length
  numbered : ∀ k ∈ s.tasks.map Prod.fst, k < s.nextTask
  distinct : (s.tasks.map Prod.fst).Nodup

/-- What holds of every state: the pools keep count of jobs and tasks, stopping may rely on its
phase, and a call that stops returns only when stopping is done. -/
structure State.Drained (s : State) : Prop where
  jobs : s.JobsCounted
  tasks : s.TasksCounted
  phase : s.StopPhase s.stopCell
  returned : ∀ c ∈ s.calls, c.wish ≠ .start → ∀ result, c.point = .returned result →
    ∃ result, s.stopCell = .done result

namespace State

variable {settings : Settings} {s next : State} {n : Nat} {j : Job}

/-- If the readers keep count of no job then none reads or holds a batch. -/
theorem JobsCounted.quiet (h : s.JobsCounted) (hempty : s.readers.tracked = 0) : s.Quiet := by
  intro j hj
  rw [JobsCounted, hempty] at h
  have htracked := List.countP_eq_zero.mp h.symm j hj
  exact Bool.eq_false_iff.mpr fun hfetching => htracked (tracked_of_fetching hfetching)

/-- If the importers keep count of no task then there is none. -/
theorem TasksCounted.no_tasks (h : s.TasksCounted) (hempty : s.importers.tracked = 0) :
    s.tasks = [] :=
  List.eq_nil_of_length_eq_zero (h.tracked ▸ hempty)

/-- The importers keep count of the same tasks. -/
theorem TasksCounted.same (h : s.TasksCounted) (htasks : SameTasks s next) :
    next.TasksCounted where
  tracked := by rw [htasks.tracked, htasks.tasks, h.tracked]
  numbered := by
    rw [htasks.tasks, htasks.nextTask]
    exact h.numbered
  distinct := htasks.tasks ▸ h.distinct

/-- The importers keep count of a task that begins. -/
theorem TasksCounted.append (h : s.TasksCounted) {task : Task}
    (htasks : next.tasks = s.tasks ++ [(s.nextTask, task)])
    (hnext : next.nextTask = s.nextTask + 1)
    (htracked : next.importers.tracked = s.importers.tracked + 1) : next.TasksCounted where
  tracked := by rw [htracked, h.tracked, htasks, List.length_append, List.length_singleton]
  numbered := by
    intro k hk
    rw [htasks, List.map_append, List.mem_append] at hk
    rcases hk with hk | hk
    · have := h.numbered k hk
      omega
    · obtain rfl : k = s.nextTask := by simpa using hk
      omega
  distinct := by
    rw [htasks, List.map_append, List.nodup_append]
    refine ⟨h.distinct, by simp, ?_⟩
    intro k hk other hother
    have := h.numbered k hk
    simp only [List.map_cons, List.map_nil, List.mem_singleton] at hother
    omega

/-- Before stopping is done no call has returned, unless it starts the run. -/
theorem Drained.none_returned (h : s.Drained) (hcell : ∀ result, s.stopCell ≠ .done result)
    {c : Call} (hc : c ∈ s.calls) (hwish : c.wish ≠ .start) (result : Result) :
    c.point ≠ .returned result := by
  intro hpoint
  obtain ⟨result, hdone⟩ := h.returned c hc hwish result hpoint
  exact hcell result hdone

/-- The calls have returned after stopping as before. -/
theorem Drained.returned_same (h : s.Drained) (hcontrol : SameControl s next) :
    ∀ c ∈ next.calls, c.wish ≠ .start → ∀ result, c.point = .returned result →
      ∃ result, next.stopCell = .done result := by
  rw [hcontrol.calls, hcontrol.stopCell]
  exact h.returned

/-- While the run is not being stopped, or the importers are not yet closed, they are open. -/
theorem Drained.open_or_quiet (h : s.Drained) :
    s.importers.closed = false ∨ s.cancelled = true ∧ s.Quiet := by
  have hphase := h.phase
  unfold StopPhase at hphase
  split at hphase
  · exact .inl hphase.2
  · exact .inl hphase.2
  · exact .inl hphase.2.1
  · exact .inl hphase.2.1
  all_goals exact .inr ⟨hphase.1, hphase.2.1⟩

/-- What stopping relies on survives whatever keeps a quiet run quiet and adds notes to a pool only
when it is empty. -/
theorem StopPhase.mono {cell : Cell StopPoint} (h : s.StopPhase cell)
    (hcancelled : next.cancelled = s.cancelled)
    (hclosed : next.importers.closed = s.importers.closed)
    (hquiet : s.cancelled = true → s.Quiet → next.Quiet)
    (htasks : s.Quiet → s.tasks = [] → next.tasks = [])
    (hreaders : ∀ since, s.cancelled = true → since < next.readers.drains →
      since < s.readers.drains ∨ next.Quiet)
    (himporters : ∀ since, since < next.importers.drains →
      since < s.importers.drains ∨ next.tasks = []) : next.StopPhase cell := by
  unfold StopPhase at h ⊢
  split
  · exact ⟨hcancelled ▸ h.1, hclosed ▸ h.2⟩
  · exact ⟨hcancelled ▸ h.1, hclosed ▸ h.2⟩
  · obtain ⟨hstop, hopen, hdrained⟩ := h
    refine ⟨hcancelled ▸ hstop, hclosed ▸ hopen, ?_⟩
    intro hsince
    rcases hreaders _ hstop hsince with hsince | hnext
    · exact hquiet hstop (hdrained hsince)
    · exact hnext
  · obtain ⟨hstop, hopen, hidle, hdrained⟩ := h
    refine ⟨hcancelled ▸ hstop, hclosed ▸ hopen, hquiet hstop hidle, ?_⟩
    intro hsince
    rcases himporters _ hsince with hsince | hnext
    · exact htasks hidle (hdrained hsince)
    · exact hnext
  all_goals
    obtain ⟨hstop, hidle, hnone⟩ := h
    exact ⟨hcancelled ▸ hstop, hquiet hstop hidle, htasks hidle hnone⟩

/-- Changing one job changes a count of jobs by that job. -/
theorem count_modify {jobs : List Job} (p : Job → Bool) (change : Job → Job)
    (hj : jobs[n]? = some j) :
    (jobs.modify n change).countP p + (p j).toNat = jobs.countP p + (p (change j)).toNat := by
  obtain ⟨hn, -⟩ := List.getElem?_eq_some_iff.mp hj
  obtain ⟨before, other, after, hjobs, rfl, hmodify⟩ := List.exists_of_modify change hn
  rw [hjobs, List.getElem?_append_right (Nat.le_refl _), Nat.sub_self] at hj
  obtain rfl : other = j := by simpa using hj
  rw [hmodify, hjobs, List.countP_append, List.countP_append, List.countP_cons, List.countP_cons]
  cases p other <;> cases p (change other) <;> simp <;> omega

/-- What is in a list after one element has been changed was in it, or is that element. -/
theorem mem_modify {α : Type} {elements : List α} {k : Nat} {a b : α} {change : α → α}
    (ha : elements[k]? = some a) (h : b ∈ elements.modify k change) :
    b = change a ∨ b ∈ elements := by
  obtain ⟨i, hi⟩ := List.mem_iff_getElem?.mp h
  rw [List.getElem?_modify] at hi
  by_cases hk : k = i
  · subst hk
    rw [ha] at hi
    exact .inl (by simpa using hi.symm)
  · exact .inr (List.mem_of_getElem? (by simpa [hk] using hi))

/-- A quiet run stays quiet if a job moves without going to read. -/
theorem Quiet.modify (h : s.Quiet) {change : Job → Job} (hj : s.jobs[n]? = some j)
    (hjobs : next.jobs = s.jobs.modify n change)
    (hfetching : (change j).point.isFetching = false) : next.Quiet := by
  intro other hother
  rcases mem_modify hj (hjobs ▸ hother) with rfl | hother
  · exact hfetching
  · exact h other hother

/-- A job keeps the counts, and nothing that stopping relies on is undone by it. -/
theorem Drained.job (h : s.Drained) (hj : s.jobs[n]? = some j) (heffect : JobEffect s next n j)
    (hcontrol : SameControl s next) : next.Drained := by
  have hreturned := h.returned_same hcontrol
  have hcounted := h.jobs
  rw [JobsCounted] at hcounted
  have hcount (change : Job → Job) := count_modify (fun j => j.point.isTracked) change hj
  cases heffect with
  | moves change hjobs htracked hfetching hreaders hdrains htasks =>
      refine ⟨?_, h.tasks.same htasks, ?_, hreturned⟩
      · have := hcount change
        simp only [htracked] at this
        rw [JobsCounted, hreaders, hjobs]
        omega
      · rw [hcontrol.stopCell]
        refine h.phase.mono hcontrol.cancelled hcontrol.closed ?_
          (fun _ hnone => htasks.tasks ▸ hnone) (fun _ _ hsince => .inl (hdrains ▸ hsince))
          (fun _ hsince => .inl (htasks.drains ▸ hsince))
        intro hstop hquiet
        -- A job that did not read does not begin to while the run is being stopped.
        refine hquiet.modify hj hjobs (Bool.eq_false_iff.mpr fun hfetch => ?_)
        rcases hfetching hfetch with hbefore | hrun
        · rw [hquiet j (List.mem_of_getElem? hj)] at hbefore
          cases hbefore
        · rw [hstop] at hrun
          cases hrun
  | enters change hjobs hbefore hafter hreaders hdrains htasks =>
      refine ⟨?_, h.tasks.same htasks, ?_, hreturned⟩
      · have := hcount change
        have htracked : (change j).point.isTracked = true := by rw [hafter]; rfl
        simp only [hbefore, htracked, Bool.toNat_false, Bool.toNat_true] at this
        rw [JobsCounted, hreaders, hjobs]
        omega
      · rw [hcontrol.stopCell]
        exact h.phase.mono hcontrol.cancelled hcontrol.closed
          (fun _ hquiet => hquiet.modify hj hjobs (by rw [hafter]; rfl))
          (fun _ hnone => htasks.tasks ▸ hnone) (fun _ _ hsince => .inl (hdrains ▸ hsince))
          (fun _ hsince => .inl (htasks.drains ▸ hsince))
  | leaves change hjobs hbefore hafter hreaders htasks =>
      -- If the readers note now that they are idle, this was the last job.
      have hnext : next.JobsCounted := by
        have := hcount change
        simp only [hbefore, hafter, Bool.toNat_false, Bool.toNat_true] at this
        rw [JobsCounted, hreaders, WorkerPool.finish_tracked, hjobs]
        omega
      refine ⟨hnext, h.tasks.same htasks, ?_, hreturned⟩
      rw [hcontrol.stopCell]
      refine h.phase.mono hcontrol.cancelled hcontrol.closed
        (fun _ hquiet => hquiet.modify hj hjobs (Bool.eq_false_iff.mpr fun hfetching => ?_))
        (fun _ hnone => htasks.tasks ▸ hnone) (fun since _ hsince => ?_)
        (fun _ hsince => .inl (htasks.drains ▸ hsince))
      · rw [tracked_of_fetching hfetching] at hafter
        cases hafter
      · rw [hreaders] at hsince
        exact (WorkerPool.lt_finish hsince).imp_right fun hempty =>
          hnext.quiet (hreaders ▸ hempty)
  | submits change batch task hjobs hbefore hafter hfetching hreaders htasks hnext himporters
      hidle =>
      refine ⟨?_, h.tasks.append htasks hnext himporters, ?_, hreturned⟩
      · have := hcount change
        have htracked : j.point.isTracked = true := by rw [hbefore]; rfl
        simp only [htracked, hafter] at this
        rw [JobsCounted, hreaders, hjobs]
        omega
      · -- The job holds a batch, so the run is not quiet.
        have hbusy : ¬ s.Quiet := fun hquiet => by
          have hidle := hquiet j (List.mem_of_getElem? hj)
          rw [hbefore] at hidle
          cases hidle
        rw [hcontrol.stopCell]
        exact h.phase.mono hcontrol.cancelled hcontrol.closed
          (fun _ hquiet => absurd hquiet hbusy) (fun hquiet _ => absurd hquiet hbusy)
          (fun _ _ hsince => .inl (hreaders ▸ hsince)) (fun _ hsince => .inl (hidle ▸ hsince))

/-- Ending a task takes it out of the tasks. -/
theorem TasksCounted.filter (h : s.TasksCounted) {k : Nat} {t : Task}
    (ht : s.tasks.lookup k = some t)
    (htasks : next.tasks = s.tasks.filter fun (other, _) => other != k)
    (hnext : next.nextTask = s.nextTask)
    (htracked : next.importers.tracked = s.importers.tracked - 1) : next.TasksCounted := by
  have hnumbers : next.tasks.map Prod.fst = (s.tasks.map Prod.fst).erase k := by
    rw [htasks, h.distinct.erase_eq_filter, List.filter_map]
    rfl
  have hmem : k ∈ s.tasks.map Prod.fst := by
    obtain ⟨before, after, hsplit, -⟩ := List.lookup_eq_some_iff.mp ht
    simp [hsplit]
  refine ⟨?_, ?_, hnumbers ▸ h.distinct.erase k⟩
  · have hlength := congrArg List.length hnumbers
    rw [List.length_erase_of_mem hmem, List.length_map, List.length_map] at hlength
    rw [htracked, h.tracked, hlength]
  · intro number hnumber
    rw [hnumbers] at hnumber
    exact hnext ▸ h.numbered number (List.mem_of_mem_erase hnumber)

/-- A task keeps the counts, and nothing that stopping relies on is undone by it. -/
theorem Drained.task (h : s.Drained) {k : Nat} {t : Task} (ht : s.tasks.lookup k = some t)
    (heffect : TaskEffect s next k) (hcontrol : SameControl s next) : next.Drained := by
  have hquiet : s.Quiet → next.Quiet := fun hquiet j hj => hquiet j (heffect.jobs ▸ hj)
  have hreturned := h.returned_same hcontrol
  have hjobs : next.JobsCounted := by
    rw [JobsCounted, heffect.readers, heffect.jobs]
    exact h.jobs
  rcases heffect.tasks with ⟨htasks, himporters⟩ | ⟨htasks, himporters⟩
  · have hlength : next.tasks.length = s.tasks.length := by
      simpa using congrArg List.length htasks
    refine ⟨hjobs, ⟨by rw [himporters, hlength, h.tasks.tracked], ?_, htasks ▸ h.tasks.distinct⟩,
      ?_, hreturned⟩
    · rw [htasks, heffect.nextTask]
      exact h.tasks.numbered
    · rw [hcontrol.stopCell]
      refine h.phase.mono hcontrol.cancelled hcontrol.closed (fun _ => hquiet)
        (fun _ hnone => ?_) (fun _ _ hsince => .inl (heffect.readers ▸ hsince))
        (fun _ hsince => .inl (himporters ▸ hsince))
      rw [hnone] at hlength
      exact List.eq_nil_of_length_eq_zero hlength
  · -- If the importers note now that they are idle, this was the last task.
    have hnext : next.TasksCounted :=
      h.tasks.filter ht htasks heffect.nextTask (by rw [himporters, WorkerPool.finish_tracked])
    refine ⟨hjobs, hnext, ?_, hreturned⟩
    rw [hcontrol.stopCell]
    refine h.phase.mono hcontrol.cancelled hcontrol.closed (fun _ => hquiet)
      (fun _ hnone => ?_) (fun _ _ hsince => .inl (heffect.readers ▸ hsince)) (fun _ hsince => ?_)
    · rw [hnone] at ht
      cases ht
    · rw [himporters] at hsince
      exact (WorkerPool.lt_finish hsince).imp_right fun hempty =>
        hnext.no_tasks (himporters ▸ hempty)

/-- Once stopping has found both pools empty, nothing is under way any more. -/
theorem stop_phase_late {cell : Cell StopPoint} (hlate : isLate cell = true) :
    s.StopPhase cell ↔ s.cancelled = true ∧ s.Quiet ∧ s.tasks = [] := by
  unfold isLate at hlate
  split at hlate
  · cases hlate
  · cases hlate
  · cases hlate
  · cases hlate
  all_goals rfl

/-- A state that differs neither in its jobs and tasks nor in its pools and calls. -/
structure SameRun (s next : State) : Prop where
  jobs : next.jobs = s.jobs
  readers : next.readers = s.readers
  tasks : next.tasks = s.tasks
  nextTask : next.nextTask = s.nextTask
  importers : next.importers = s.importers
  cancelled : next.cancelled = s.cancelled
  calls : next.calls = s.calls

/-- Where neither jobs and tasks nor pools and calls differ, the invariant carries over. -/
theorem Drained.same (h : s.Drained) (hsame : SameRun s next)
    (hcell : next.stopCell = s.stopCell ∨
      isLate s.stopCell = true ∧ isLate next.stopCell = true ∧
        ∃ point, s.stopCell = .running point) : next.Drained := by
  refine ⟨?_, h.tasks.same ⟨hsame.tasks, hsame.nextTask, by rw [hsame.importers],
    by rw [hsame.importers]⟩, ?_, ?_⟩
  · rw [JobsCounted, hsame.jobs, hsame.readers]
    exact h.jobs
  · rcases hcell with hcell | ⟨hlate, hnext, -⟩
    · rw [hcell]
      exact h.phase.mono hsame.cancelled (by rw [hsame.importers])
        (fun _ hquiet j hj => hquiet j (hsame.jobs ▸ hj)) (fun _ hnone => hsame.tasks ▸ hnone)
        (fun _ _ hsince => .inl (hsame.readers ▸ hsince))
        (fun _ hsince => .inl (hsame.importers ▸ hsince))
    · have hphase := h.phase
      rw [stop_phase_late hlate] at hphase
      rw [stop_phase_late hnext, hsame.cancelled, hsame.tasks]
      exact ⟨hphase.1, fun j hj => hphase.2.1 j (hsame.jobs ▸ hj), hphase.2.2⟩
  · rw [hsame.calls]
    intro c hc hwish result hpoint
    obtain ⟨result, hdone⟩ := h.returned c hc hwish result hpoint
    rcases hcell with hcell | ⟨-, -, point, hrunning⟩
    · exact ⟨result, hcell.trans hdone⟩
    · rw [hrunning] at hdone
      cases hdone

/-- Nothing reads a job that joins. -/
theorem Drained.import (h : s.Drained) (sourceName : String) (importers : List Importer) :
    ({ s with jobs := s.jobs ++ [{ sourceName, importers }] } : State).Drained := by
  refine ⟨?_, h.tasks.same ⟨rfl, rfl, rfl, rfl⟩, ?_, h.returned⟩
  · have hcounted := h.jobs
    rw [JobsCounted] at hcounted ⊢
    rw [List.countP_append, hcounted]
    rfl
  · refine h.phase.mono rfl rfl ?_ (fun _ hnone => hnone)
      (fun _ _ hsince => .inl hsince) (fun _ hsince => .inl hsince)
    intro _ hquiet j hj
    rcases List.mem_append.mp hj with hj | hj
    · exact hquiet j hj
    · obtain rfl := List.mem_singleton.mp hj
      rfl

/-- Starting touches neither jobs and tasks nor pools and calls. -/
theorem after_start_hooks_same (s : State) (graph : String) (progress : HookProgress) :
    SameRun s (s.afterStartHooks graph progress) ∧
      (s.afterStartHooks graph progress).stopCell = s.stopCell := by
  cases progress with
  | running => exact ⟨⟨rfl, rfl, rfl, rfl, rfl, rfl, rfl⟩, rfl⟩
  | ended result =>
      cases result with
      | ok | error => exact ⟨⟨rfl, rfl, rfl, rfl, rfl, rfl, rfl⟩, rfl⟩

/-- Starting keeps what stopping relies on. -/
theorem Drained.start (h : s.Drained) {answer : Answer}
    (hstep : StartStep settings s answer next) : next.Drained := by
  cases hstep with
  | stopped | opened | unopened => exact h.same ⟨rfl, rfl, rfl, rfl, rfl, rfl, rfl⟩ (.inl rfl)
  | begun progress events _ _ _ | hooked _ _ progress events _ _ =>
      obtain ⟨hsame, hcell⟩ :=
        (s.recordHooks .before events).after_start_hooks_same settings.graphName progress
      exact h.same ⟨hsame.jobs, hsame.readers, hsame.tasks, hsame.nextTask, hsame.importers,
        hsame.cancelled, hsame.calls⟩ (.inl hcell)

/-- The hooks after the import touch neither jobs and tasks nor pools and calls. -/
theorem after_stop_hooks_same (s : State) (graph : String) (progress : HookProgress) :
    SameRun s (s.afterStopHooks graph progress) ∧
      isLate (s.afterStopHooks graph progress).stopCell = true := by
  have hhooked := s.stop_hooked graph progress
  generalize s.afterStopHooks graph progress = next at hhooked ⊢
  cases hhooked with
  | running | closing | done => exact ⟨⟨rfl, rfl, rfl, rfl, rfl, rfl, rfl⟩, rfl⟩

/-- Stopping establishes what it relies on, phase by phase. -/
theorem Drained.stop (h : s.Drained) {answer : Answer}
    (hstep : StopStep settings s answer next) : next.Drained := by
  have hphase := h.phase
  cases hstep with
  | begun hcell =>
      rw [hcell] at hphase
      refine ⟨?_, h.tasks.same ⟨rfl, rfl, rfl, rfl⟩, ?_, ?_⟩
      · exact (WorkerPool.watch_tracked s.readers).trans h.jobs
      · -- Only idleness from the cancellation on counts.
        exact ⟨rfl, hphase.2, fun hsince => absurd hsince (Nat.lt_irrefl _)⟩
      · intro c hc hwish result hpoint
        exact absurd hpoint (h.none_returned (by rw [hcell]; nofun) hc hwish result)
  | readersDrained since hcell hdrained =>
      rw [hcell] at hphase
      obtain ⟨hstop, hopen, hquiet⟩ := hphase
      -- The readers are idle, or were at some time since the cancellation.
      have hidle : s.Quiet :=
        (WorkerPool.empty_of_has_drained hdrained).elim hquiet h.jobs.quiet
      refine ⟨h.jobs, ?_, ?_, ?_⟩
      · exact ⟨(WorkerPool.watch_tracked s.importers).trans h.tasks.tracked, h.tasks.numbered,
          h.tasks.distinct⟩
      · exact ⟨hstop, (WorkerPool.watch_closed s.importers).trans hopen, hidle,
          fun hsince => absurd hsince (Nat.lt_irrefl _)⟩
      · intro c hc hwish result hpoint
        exact absurd hpoint (h.none_returned (by rw [hcell]; nofun) hc hwish result)
  | importersDrained since hcell hdrained =>
      rw [hcell] at hphase
      obtain ⟨hstop, hopen, hquiet, hnone⟩ := hphase
      -- No task has begun since, because no job holds a batch.
      have hidle : s.tasks = [] :=
        (WorkerPool.empty_of_has_drained hdrained).elim hnone h.tasks.no_tasks
      refine ⟨?_, ?_, ⟨hstop, hquiet, hidle⟩, ?_⟩
      · exact (WorkerPool.close_tracked s.readers).trans h.jobs
      · exact ⟨(WorkerPool.close_tracked s.importers).trans h.tasks.tracked, h.tasks.numbered,
          h.tasks.distinct⟩
      · intro c hc hwish result hpoint
        exact absurd hpoint (h.none_returned (by rw [hcell]; nofun) hc hwish result)
  | collected _ _ _ _ _ _ _ hcell | joining _ _ hcell =>
      exact h.same ⟨rfl, rfl, rfl, rfl, rfl, rfl, rfl⟩ (.inr ⟨by rw [hcell]; rfl, rfl, _, hcell⟩)
  | unhooked lines hcell =>
      obtain ⟨hlate, point, hrunning⟩ :
          isLate s.stopCell = true ∧ ∃ point, s.stopCell = .running point := by
        rcases hcell with ⟨failed, hcell, -⟩ | ⟨hcell, -⟩ <;> rw [hcell] <;> exact ⟨rfl, _, rfl⟩
      obtain ⟨hsame, hnext⟩ :=
        ((s.report lines).recordHooks .after (HookRun.begin settings.hooks.after).2)
          |>.after_stop_hooks_same settings.graphName (HookRun.begin settings.hooks.after).1
      exact h.same ⟨hsame.jobs, hsame.readers, hsame.tasks, hsame.nextTask, hsame.importers,
        hsame.cancelled, hsame.calls⟩ (.inr ⟨hlate, hnext, point, hrunning⟩)
  | hooked run answer progress events hcell hreceive =>
      obtain ⟨hsame, hnext⟩ :=
        (s.recordHooks .after events).after_stop_hooks_same settings.graphName progress
      exact h.same ⟨hsame.jobs, hsame.readers, hsame.tasks, hsame.nextTask, hsame.importers,
        hsame.cancelled, hsame.calls⟩ (.inr ⟨by rw [hcell]; rfl, hnext, _, hcell⟩)
  | closed _ outcome hcell =>
      cases outcome with
      | ok | error =>
          exact h.same ⟨rfl, rfl, rfl, rfl, rfl, rfl, rfl⟩
            (.inr ⟨by rw [hcell]; rfl, rfl, _, hcell⟩)

/-- A call has returned only once stopping is done, unless it starts the run. -/
theorem Drained.returned_move (h : s.Drained) {c : Call} (hc : s.calls[n]? = some c)
    {point : CallPoint} (hcalls : next.calls = (s.moveCall n point).calls)
    (hkeep : ∀ result, s.stopCell = .done result → next.stopCell = .done result)
    (hpoint : ∀ result, point = .returned result → c.wish ≠ .start →
      ∃ result, next.stopCell = .done result) :
    ∀ c ∈ next.calls, c.wish ≠ .start → ∀ result, c.point = .returned result →
      ∃ result, next.stopCell = .done result := by
  intro other hother hwish result hreturned
  rcases mem_modify hc (hcalls ▸ hother) with rfl | hother
  · exact hpoint result hreturned hwish
  · obtain ⟨result, hdone⟩ := h.returned other hother hwish result hreturned
    exact ⟨result, hkeep result hdone⟩

/-- Stopping begins with everything that it relies on. -/
theorem Drained.begin_stop (h : s.Drained) (hidle : s.stopCell = .idle) :
    ({ s with stopCell := .running .begun } : State).Drained := by
  have hphase := h.phase
  rw [hidle] at hphase
  refine ⟨h.jobs, h.tasks.same ⟨rfl, rfl, rfl, rfl⟩, hphase, ?_⟩
  intro c hc hwish result hpoint
  exact absurd hpoint (h.none_returned (by rw [hidle]; nofun) hc hwish result)

/-- Calling for a body keeps what stopping relies on. -/
theorem Drained.enter (h : s.Drained) {c : Call} (hc : s.calls[n]? = some c) :
    (s.enter n c.wish).Drained := by
  have hmoved : (s.moveCall n .awaiting).Drained := by
    refine ⟨h.jobs, h.tasks.same ⟨rfl, rfl, rfl, rfl⟩, ?_, ?_⟩
    · exact h.phase.mono rfl rfl (fun _ hquiet => hquiet) (fun _ hnone => hnone)
        (fun _ _ hsince => .inl hsince) (fun _ hsince => .inl hsince)
    · exact h.returned_move hc rfl (fun _ hdone => hdone) nofun
  simp only [State.enter]
  split
  next => exact hmoved.same ⟨rfl, rfl, rfl, rfl, rfl, rfl, rfl⟩ (.inl rfl)
  next hidle => exact hmoved.begin_stop hidle
  next hidle => exact hmoved.begin_stop hidle
  next => exact hmoved

/-- A call changes nothing that stopping relies on. -/
theorem Drained.call (h : s.Drained) {c : Call} (hc : s.calls[n]? = some c)
    (hstep : CallStep s n c next) : next.Drained := by
  cases hstep with
  | waiting =>
      have hjobs : ({ s with readers := s.readers.watch } : State).JobsCounted :=
        (WorkerPool.watch_tracked s.readers).trans h.jobs
      refine ⟨hjobs, h.tasks.same ⟨rfl, rfl, rfl, rfl⟩, ?_, ?_⟩
      · exact h.phase.mono rfl rfl (fun _ hquiet => hquiet) (fun _ hnone => hnone)
          (fun _ _ hsince => (WorkerPool.lt_watch hsince).imp_right h.jobs.quiet)
          (fun _ hsince => .inl hsince)
      · exact h.returned_move hc rfl (fun _ hdone => hdone) nofun
  | readersDrained =>
      refine ⟨h.jobs, ?_, ?_, ?_⟩
      · exact ⟨(WorkerPool.watch_tracked s.importers).trans h.tasks.tracked, h.tasks.numbered,
          h.tasks.distinct⟩
      · exact h.phase.mono rfl (WorkerPool.watch_closed s.importers) (fun _ hquiet => hquiet)
          (fun _ hnone => hnone) (fun _ _ hsince => .inl hsince)
          (fun _ hsince => (WorkerPool.lt_watch hsince).imp_right h.tasks.no_tasks)
      · exact h.returned_move hc rfl (fun _ hdone => hdone) nofun
  | entered | importersDrained => exact h.enter hc
  | answered result hpoint hresult =>
      refine ⟨h.jobs, h.tasks.same ⟨rfl, rfl, rfl, rfl⟩, ?_, ?_⟩
      · exact h.phase.mono rfl rfl (fun _ hquiet => hquiet) (fun _ hnone => hnone)
          (fun _ _ hsince => .inl hsince) (fun _ hsince => .inl hsince)
      · refine h.returned_move hc rfl (fun _ hdone => hdone) fun _ _ hwish => ?_
        have hdone : s.stopCell.result? = some result := by
          unfold awaited? at hresult
          split at hresult
          · exact absurd ‹_› hwish
          · exact hresult
          · exact hresult
        unfold Cell.result? at hdone
        split at hdone
        next other hcell => exact ⟨other, hcell⟩
        next => cases hdone

/-- The invariant holds before anything has happened. -/
theorem drained_initial (settings : Settings) : (State.initial settings).Drained where
  jobs := rfl
  tasks := ⟨rfl, nofun, List.nodup_nil⟩
  phase := ⟨rfl, rfl⟩
  returned := nofun

/-- Every transition keeps the invariant. -/
theorem Drained.transition {label : Label} (h : s.Drained)
    (hstep : Transition settings s label next) : next.Drained := by
  cases hstep with
  | «import» sourceName importers => exact h.import sourceName importers
  | call wish =>
      refine ⟨h.jobs, h.tasks.same ⟨rfl, rfl, rfl, rfl⟩, h.phase, ?_⟩
      intro c hc hwish result hpoint
      rcases List.mem_append.mp hc with hc | hc
      · exact h.returned c hc hwish result hpoint
      · obtain rfl := List.mem_singleton.mp hc
        cases hpoint
  | clock time => exact h.same ⟨rfl, rfl, rfl, rfl, rfl, rfl, rfl⟩ (.inl rfl)
  | job n j answer _ hj hstep => exact h.job hj hstep.effect hstep.same_control
  | task k t answer _ ht hstep => exact h.task ht hstep.effect.2 hstep.effect.1
  | start answer _ hstep => exact h.start hstep
  | stop answer _ hstep => exact h.stop hstep
  | report answer _ hstep =>
      cases hstep with
      | ticked | ended => exact h.same ⟨rfl, rfl, rfl, rfl, rfl, rfl, rfl⟩ (.inl rfl)
  | caller n c _ hc hstep => exact h.call hc hstep

/-- The invariant holds of every state that a run can get to. -/
theorem drained_of_reachable (h : Reachable settings s) : s.Drained := by
  induction h with
  | initial => exact drained_initial settings
  | step label _ hstep ih => exact ih.transition (transition_of_step hstep)

/-- While a job holds a batch the importers are open. -/
theorem Drained.open_of_submitting (h : s.Drained) (hj : s.jobs[n]? = some j) {batch : Batch}
    (hpoint : j.point = .submitting batch) : s.importers.closed = false := by
  rcases h.open_or_quiet with hopen | ⟨-, hquiet⟩
  · exact hopen
  · have hidle := hquiet j (List.mem_of_getElem? hj)
    rw [hpoint] at hidle
    cases hidle

/-- Once a call that stops the run has returned, stopping is done. -/
theorem Drained.done_of_returned (h : s.Drained) (hreturned : s.stopReturned = true) :
    ∃ result, s.stopCell = .done result := by
  obtain ⟨c, hc, hstop⟩ := List.any_eq_true.mp hreturned
  obtain ⟨hwish, hpoint⟩ := Bool.and_eq_true_iff.mp hstop
  unfold CallPoint.isReturned at hpoint
  split at hpoint
  next result hreturned => exact h.returned c hc (bne_iff_ne.mp hwish) result hreturned
  all_goals cases hpoint

/-- Once a call that stops the run has returned, no job reads or holds a batch and no task is under
way. -/
theorem Drained.over (h : s.Drained) (hreturned : s.stopReturned = true) :
    s.Quiet ∧ s.tasks = [] := by
  obtain ⟨result, hdone⟩ := h.done_of_returned hreturned
  have hphase := h.phase
  rw [hdone] at hphase
  exact hphase.2

end State

end BulkLoad.Manager
