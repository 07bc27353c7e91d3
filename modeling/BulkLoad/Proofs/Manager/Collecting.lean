import BulkLoad.Proofs.Manager.Holding

/-!
# Stopping collects every job

A job that has been registered waits to be collected: stopping takes up all such jobs in the step in
which it closes the readers, so that none can be registered after that, and then waits for each of
them to end. Hence no job is under way when stopping is done (`ended_of_returned`), and nobody holds
a unit of an importer any more (`count_of_returned`). No transition minds jobs that stopping does
not get to see beside them (`Collected.transition`).
-/

namespace BulkLoad.Manager

/-- How a job has ended, if it has. -/
def JobPoint.end? : JobPoint → Option JobEnd
  | .ended result => some result
  | _ => none

/-- The jobs whose end stopping has still to see: those that it has not taken up, and then those
that it has not found to have ended. -/
def State.awaited (s : State) : List Nat :=
  match s.stopCell with
  | .idle | .running .begun | .running (.drainingReaders _) | .running (.drainingImporters _) =>
      s.uncollected
  | .running (.collecting jobs _) => jobs
  | .running .joining | .running (.hooks _) | .running (.closing _) | .done _ => []

/-- The readers are closed when stopping begins to collect the jobs, and a registered job that has
not ended is awaited, except for those that stopping does not get to see. -/
structure State.Collected (s : State) (unseen : List Nat) : Prop where
  closed : s.readers.closed = isLate s.stopCell
  awaited : ∀ n j, s.jobs[n]? = some j → j.point.isRegistered = true → j.point.end? = none →
    n ∈ s.awaited ∨ n ∈ unseen

/-- What a step of job `n`, which is `j`, does to the jobs that are awaited: it is not registered
after the step, or it is registered by the step while the readers are open, or it goes on. -/
inductive AwaitEffect (s next : State) (n : Nat) (j after : Job) : Prop where
  | pends (hafter : after.point.isRegistered = false)
      (huncollected : next.uncollected = s.uncollected)
  | enters (hafter : after.point.isRegistered = true) (hopen : s.readers.closed = false)
      (huncollected : next.uncollected = s.uncollected ++ [n])
  | works (hbefore : j.point.isRegistered = true) (hunended : j.point.end? = none)
      (huncollected : next.uncollected = s.uncollected)

section

variable {settings : Settings} {s next : State} {n : Nat} {j : Job} {answer : Answer}
  {unseen others : List Nat}

/-! ## What the actors change -/

/-- A job that goes on is awaited as before. -/
theorem GoesOn.await_effect {importers : List Importer} {base : State}
    (h : GoesOn base n j importers next) (hjobs : base.jobs = s.jobs)
    (hclosed : base.readers.closed = s.readers.closed)
    (huncollected : base.uncollected = s.uncollected) (hbefore : j.point.isRegistered = true)
    (hunended : j.point.end? = none) :
    next.readers.closed = s.readers.closed ∧ ∃ change : Job → Job,
      next.jobs = s.jobs.modify n change ∧ AwaitEffect s next n j (change j) := by
  cases h with
  | readying | reading | stopping =>
      exact ⟨hclosed, _, congrArg (List.modify · n _) hjobs, .works hbefore hunended huncollected⟩

/-- Every step of a job has such an effect. -/
theorem JobStep.await_effect (h : JobStep settings s n j answer next) :
    next.readers.closed = s.readers.closed ∧ ∃ change : Job → Job,
      next.jobs = s.jobs.modify n change ∧ AwaitEffect s next n j (change j) := by
  have hworks {point : JobPoint} {after : Job} (hpoint : j.point = point)
      (hregistered : point.isRegistered = true) (hunended : point.end? = none)
      (huncollected : next.uncollected = s.uncollected) : AwaitEffect s next n j after :=
    .works (hpoint ▸ hregistered) (hpoint ▸ hunended) huncollected
  cases h with
  | skipped | refused | opening | opened | unopened | unregistered | unsized | dismissed =>
      exact ⟨rfl, _, rfl, .pends rfl rfl⟩
  | registered size hpoint hopen => exact ⟨rfl, _, rfl, .enters rfl hopen rfl⟩
  | enqueued hpoint | granted hpoint | readBatch _ _ hpoint | drained hpoint | failed _ hpoint =>
      exact ⟨rfl, _, rfl, hworks hpoint rfl rfl rfl⟩
  | cancelled hpoint =>
      refine ⟨rfl, _, rfl, ?_⟩
      rcases hpoint with hpoint | ⟨importer, rest, hpoint⟩ <;> exact hworks hpoint rfl rfl rfl
  | lost _ hpoint =>
      exact ⟨WorkerPool.finish_closed _ _, _, rfl, hworks hpoint rfl rfl rfl⟩
  | ended _ _ _ hpoint =>
      exact ⟨WorkerPool.finish_closed _ _, _, rfl, hworks hpoint rfl rfl rfl⟩
  | released _ hpoint _ hnext | ready _ _ _ hpoint hnext | readNothing _ _ hpoint hnext
  | submitted _ _ hpoint _ _ hnext | rejected _ _ _ hpoint _ hnext =>
      exact hnext.await_effect rfl rfl rfl (by rw [hpoint]; rfl) (by rw [hpoint]; rfl)

/-- A task leaves the jobs that wait to be collected alone. -/
theorem TaskStep.uncollected {t : Task} (h : TaskStep settings s n t answer next) :
    next.uncollected = s.uncollected := by
  cases h with
  | settled | sent | rested | resent => rfl
  | planned _ _ _ _ _ _ hnext | concluded _ _ _ _ _ _ hnext
  | crashed _ _ _ _ hnext =>
      cases hnext with
      | imported | panicked | overflowed => rfl

/-- Starting leaves the readers and the jobs that wait to be collected alone. -/
theorem StartStep.uncollected (h : StartStep settings s answer next) :
    next.readers = s.readers ∧ next.uncollected = s.uncollected := by
  cases h with
  | stopped | opened | unopened => exact ⟨rfl, rfl⟩
  | begun progress | hooked _ _ progress =>
      match progress with
      | .running _ => exact ⟨rfl, rfl⟩
      | .ended (.ok ()) => exact ⟨rfl, rfl⟩
      | .ended (.error _) => exact ⟨rfl, rfl⟩

/-- Once stopping runs its hooks no job is awaited any more. -/
theorem awaited_stop_hooks (s : State) (graph : String) (progress : HookProgress) :
    (s.afterStopHooks graph progress).awaited = [] := by
  have hhooked := s.stop_hooked graph progress
  generalize s.afterStopHooks graph progress = next at hhooked ⊢
  cases hhooked with
  | running | closing | done => rfl

/-- The hooks leave the jobs alone that wait to be collected. -/
theorem uncollected_stop_hooks (s : State) (graph : String) (progress : HookProgress) :
    (s.afterStopHooks graph progress).uncollected = s.uncollected := by
  have hhooked := s.stop_hooked graph progress
  generalize s.afterStopHooks graph progress = next at hhooked ⊢
  cases hhooked with
  | running | closing | done => rfl

namespace State

/-! ## The invariant -/

/-- Where the jobs are the same, each that has been registered is to stay awaited or unseen. -/
theorem Collected.moved (h : s.Collected unseen) (hjobs : next.jobs = s.jobs)
    (hclosed : next.readers.closed = isLate next.stopCell)
    (hkept : ∀ n, s.IsRegistered n → n ∈ s.awaited ∨ n ∈ unseen → n ∈ next.awaited ∨ n ∈ others) :
    next.Collected others := by
  refine ⟨hclosed, ?_⟩
  rw [hjobs]
  exact fun n j hj hregistered hunended =>
    hkept n ⟨j, hj, hregistered⟩ (h.awaited n j hj hregistered hunended)

/-- Stopping may be allowed not to get to see more jobs. -/
theorem Collected.widen (h : s.Collected unseen) (hmore : ∀ n ∈ unseen, n ∈ others) :
    s.Collected others :=
  h.moved rfl h.closed fun n _ hn => hn.imp_right (hmore n)

/-- Where the jobs are the same and the same are awaited, all are. -/
theorem Collected.same (h : s.Collected unseen) (hjobs : next.jobs = s.jobs)
    (hclosed : next.readers.closed = isLate next.stopCell) (hawaited : next.awaited = s.awaited) :
    next.Collected unseen :=
  h.moved hjobs hclosed fun _ _ hn => by rwa [hawaited]

/-- A job that joins has not been registered. -/
theorem Collected.import (h : s.Collected unseen) (sourceName : String)
    (importers : List Importer) :
    ({ s with jobs := s.jobs ++ [{ sourceName, importers }] } : State).Collected unseen := by
  refine ⟨h.closed, ?_⟩
  intro n j hj hregistered hunended
  by_cases hn : n < s.jobs.length
  · exact h.awaited n j ((List.getElem?_append_left hn).symm.trans hj) hregistered hunended
  · rw [List.getElem?_append_right (Nat.not_lt.mp hn)] at hj
    rw [List.mem_singleton.mp (List.mem_of_getElem? hj)] at hregistered
    cases hregistered

/-- Before the readers are closed stopping has taken up no job. -/
theorem awaited_of_open (h : isLate s.stopCell = false) : s.awaited = s.uncollected := by
  rw [awaited]
  cases hcell : s.stopCell with
  | idle => rfl
  | running point =>
      cases point with
      | begun | drainingReaders | drainingImporters => rfl
      | collecting | joining | hooks | closing => rw [hcell] at h; cases h
  | done => rw [hcell] at h; cases h

/-- Keeping one more job leaves all awaited that were. -/
theorem mem_awaited_keep (k : Nat) (h : n ∈ s.awaited) : n ∈ (s.keepJob k).awaited := by
  unfold State.awaited at h ⊢
  split at h
  case h_1 hcell | h_2 hcell | h_3 hcell | h_4 hcell =>
    rw [show (s.keepJob k).stopCell = s.stopCell from rfl, hcell]
    exact List.mem_append_left _ h
  case h_5 hcell =>
    rw [show (s.keepJob k).stopCell = s.stopCell from rfl, hcell]
    exact h
  all_goals cases h

/-- A job is awaited from its registration on. -/
theorem Collected.job (h : s.Collected unseen) (hj : s.jobs[n]? = some j) {change : Job → Job}
    (hjobs : next.jobs = s.jobs.modify n change) (hcell : next.stopCell = s.stopCell)
    (hclosed : next.readers.closed = s.readers.closed)
    (heffect : AwaitEffect s next n j (change j)) : next.Collected unseen := by
  refine ⟨by rw [hclosed, hcell, h.closed], ?_⟩
  intro k other hother hregistered hunended
  have hawaited {k : Nat} (huncollected : next.uncollected = s.uncollected)
      (hk : k ∈ s.awaited ∨ k ∈ unseen) : k ∈ next.awaited ∨ k ∈ unseen := by
    rwa [State.awaited, hcell, huncollected]
  by_cases hk : n = k
  · subst hk
    obtain rfl : change j = other :=
      Option.some.inj ((modified_at change hj).symm.trans (hjobs ▸ hother))
    cases heffect with
    | pends hafter =>
        rw [hafter] at hregistered
        cases hregistered
    | enters _ hopen huncollected =>
        rw [awaited_of_open (by rw [hcell, ← h.closed, hopen]), huncollected]
        exact .inl (List.mem_append_right _ List.mem_cons_self)
    | works hbefore hgoes huncollected =>
        exact hawaited huncollected (h.awaited n j hj hbefore hgoes)
  · rw [hjobs, List.getElem?_modify_ne _ _ hk] at hother
    have hk := h.awaited k other hother hregistered hunended
    cases heffect with
    | pends _ huncollected | works _ _ huncollected => exact hawaited huncollected hk
    | enters _ hopen huncollected =>
        have hearly : isLate s.stopCell = false := by rw [← h.closed, hopen]
        rw [awaited_of_open hearly] at hk
        rw [awaited_of_open (hcell ▸ hearly), huncollected]
        exact hk.imp_left (List.mem_append_left _)

/-- Nothing else has to hold of a job that stopping does not get to see. -/
theorem Collected.unseen_job (h : s.Collected unseen) (hn : n ∈ unseen) {change : Job → Job}
    (hjobs : next.jobs = s.jobs.modify n change) (hcell : next.stopCell = s.stopCell)
    (hclosed : next.readers.closed = s.readers.closed)
    (huncollected : next.uncollected = s.uncollected) : next.Collected unseen := by
  refine ⟨by rw [hclosed, hcell, h.closed], ?_⟩
  intro k other hother hregistered hunended
  by_cases hk : n = k
  · exact .inr (hk ▸ hn)
  · rw [hjobs, List.getElem?_modify_ne _ _ hk] at hother
    rw [State.awaited, hcell, huncollected]
    exact h.awaited k other hother hregistered hunended

/-- Stopping takes up all jobs when it closes the readers, and leaves none of them behind. -/
theorem Collected.stop (h : s.Collected unseen) (hstep : StopStep settings s answer next) :
    next.Collected unseen := by
  have hclosed := h.closed
  have hhooks (s' : State) (hjobs : s'.jobs = s.jobs) (hreaders : s'.readers = s.readers)
      (hlate : isLate s.stopCell = true) (hnone : s.awaited = []) (progress : HookProgress) :
      (s'.afterStopHooks settings.graphName progress).Collected unseen := by
    obtain ⟨hsame, hnext⟩ := s'.after_stop_hooks_same settings.graphName progress
    refine h.same (hsame.jobs.trans hjobs) ?_ (by rw [awaited_stop_hooks, hnone])
    rw [hsame.readers, hreaders, hnext, hclosed, hlate]
  cases hstep with
  | begun hcell =>
      have hawaited : s.awaited = s.uncollected := awaited_of_open (by rw [hcell]; rfl)
      rw [hcell] at hclosed
      exact h.same rfl ((WorkerPool.watch_closed _).trans hclosed) hawaited.symm
  | readersDrained since hcell =>
      have hawaited : s.awaited = s.uncollected := awaited_of_open (by rw [hcell]; rfl)
      rw [hcell] at hclosed
      exact h.same rfl hclosed hawaited.symm
  | importersDrained since hcell =>
      have hawaited : s.awaited = s.uncollected := awaited_of_open (by rw [hcell]; rfl)
      exact h.same rfl (WorkerPool.watch_closed _) hawaited.symm
  | collected k rest failed total j result lines hcell hj hpoint =>
      rw [hcell] at hclosed
      refine ⟨hclosed, ?_⟩
      intro m other hother hregistered hunended
      have hm := h.awaited m other hother hregistered hunended
      rw [State.awaited, hcell] at hm
      refine hm.imp_left fun hm => (List.mem_cons.mp hm).resolve_left ?_
      rintro rfl
      obtain rfl : j = other := Option.some.inj (hj.symm.trans hother)
      rw [hpoint] at hunended
      cases hunended
  | joining failed lines hcell =>
      rw [hcell] at hclosed
      exact h.same rfl hclosed (by rw [State.awaited, State.awaited, hcell]; rfl)
  | unhooked lines hcell =>
      obtain ⟨hlate, hnone⟩ : isLate s.stopCell = true ∧ s.awaited = [] := by
        rw [State.awaited]
        rcases hcell with ⟨failed, hcell, -⟩ | ⟨hcell, -⟩ <;> rw [hcell] <;> exact ⟨rfl, rfl⟩
      exact hhooks ((s.report lines).recordHooks .after (HookRun.begin settings.hooks.after).2) rfl
        rfl hlate hnone (HookRun.begin settings.hooks.after).1
  | hooked run answer progress events hcell =>
      exact hhooks (s.recordHooks .after events) rfl rfl (by rw [hcell]; rfl)
        (by rw [State.awaited, hcell]) progress
  | closed result outcome hcell =>
      rw [hcell] at hclosed
      have hnone : s.awaited = [] := by rw [State.awaited, hcell]
      cases outcome with
      | ok | error => exact h.same rfl hclosed hnone.symm

/-- Stopping begins with all registered jobs still to take up. -/
theorem Collected.enter (h : s.Collected unseen) (n : Nat) (wish : Wish) :
    (s.enter n wish).Collected unseen := by
  have hmoved : (s.moveCall n .awaiting).Collected unseen := h.same rfl h.closed rfl
  have hbegun (hidle : (s.moveCall n .awaiting).stopCell = .idle) :
      ({ s.moveCall n .awaiting with stopCell := .running .begun } : State).Collected unseen := by
    refine hmoved.same rfl ?_ (awaited_of_open (by rw [hidle]; rfl)).symm
    exact hmoved.closed.trans (by rw [hidle]; rfl)
  simp only [State.enter]
  split
  next => exact hmoved.same rfl hmoved.closed rfl
  next hidle => exact hbegun hidle
  next hidle => exact hbegun hidle
  next => exact hmoved

/-- Every transition keeps the registered jobs awaited. -/
theorem Collected.transition {label : Label} (h : s.Collected unseen)
    (hstep : Transition settings s label next) : next.Collected unseen := by
  have hsame {next : State} (hjobs : next.jobs = s.jobs)
      (hclosed : next.readers.closed = s.readers.closed) (hcell : next.stopCell = s.stopCell)
      (huncollected : next.uncollected = s.uncollected) : next.Collected unseen :=
    h.same hjobs (by rw [hclosed, hcell, h.closed])
      (by rw [State.awaited, State.awaited, hcell, huncollected])
  cases hstep with
  | «import» sourceName importers => exact h.import sourceName importers
  | call | clock => exact hsame rfl rfl rfl rfl
  | job n j answer _ hj hstep =>
      obtain ⟨hclosed, change, hjobs, heffect⟩ := hstep.await_effect
      exact h.job hj hjobs hstep.same_control.stopCell hclosed heffect
  | task n t answer _ ht hstep =>
      obtain ⟨hcontrol, heffect⟩ := hstep.effect
      exact hsame heffect.jobs (by rw [heffect.readers]) hcontrol.stopCell hstep.uncollected
  | start answer _ hstep =>
      obtain ⟨hreaders, huncollected⟩ := hstep.uncollected
      exact hsame hstep.effect.work.jobs (by rw [hreaders]) hstep.effect.stopCell huncollected
  | stop answer _ hstep => exact h.stop hstep
  | report answer _ hstep =>
      cases hstep with
      | ticked | ended => exact hsame rfl rfl rfl rfl
  | caller n c _ hc hstep =>
      cases hstep with
      | waiting => exact hsame rfl (WorkerPool.watch_closed _) rfl rfl
      | readersDrained | answered => exact hsame rfl rfl rfl rfl
      | entered | importersDrained => exact h.enter n c.wish

/-- Once stopping has taken up the jobs it leaves those alone that wait to be collected, and nothing
adds to them. -/
theorem Collected.uncollected_of_late {label : Label} (h : s.Collected unseen)
    (hlate : isLate s.stopCell = true) (hstep : Transition settings s label next) :
    isLate next.stopCell = true ∧ next.uncollected = s.uncollected := by
  cases hstep with
  | «import» | call | clock => exact ⟨hlate, rfl⟩
  | job n j answer _ hj hstep =>
      obtain ⟨-, change, -, heffect⟩ := hstep.await_effect
      refine ⟨hstep.same_control.stopCell ▸ hlate, ?_⟩
      cases heffect with
      | pends _ hsame | works _ _ hsame => exact hsame
      | enters _ hopen =>
          rw [h.closed, hlate] at hopen
          cases hopen
  | task n t answer _ ht hstep => exact ⟨hstep.effect.1.stopCell ▸ hlate, hstep.uncollected⟩
  | start answer _ hstep => exact ⟨hstep.effect.stopCell ▸ hlate, hstep.uncollected.2⟩
  | stop answer _ hstep =>
      have hhooks (base : State) (hsame : base.uncollected = s.uncollected)
          (progress : HookProgress) :
          isLate (base.afterStopHooks settings.graphName progress).stopCell = true ∧
            (base.afterStopHooks settings.graphName progress).uncollected = s.uncollected :=
        ⟨(base.after_stop_hooks_same settings.graphName progress).2,
          (uncollected_stop_hooks base settings.graphName progress).trans hsame⟩
      cases hstep with
      | begun hcell | readersDrained _ hcell | importersDrained _ hcell =>
          rw [hcell] at hlate
          cases hlate
      | collected | joining => exact ⟨rfl, rfl⟩
      | unhooked lines =>
          exact hhooks ((s.report lines).recordHooks .after
            (HookRun.begin settings.hooks.after).2) rfl (HookRun.begin settings.hooks.after).1
      | hooked run answer progress events => exact hhooks (s.recordHooks .after events) rfl progress
      | closed result outcome => cases outcome <;> exact ⟨rfl, rfl⟩
  | report answer _ hstep =>
      cases hstep with
      | ticked | ended => exact ⟨hlate, rfl⟩
  | caller n c _ hc hstep =>
      cases hstep with
      | waiting | readersDrained | answered => exact ⟨hlate, rfl⟩
      | entered | importersDrained =>
          have hbegun (hidle : s.stopCell = .idle) : isLate s.stopCell ≠ true := by
            rw [hidle]
            exact Bool.false_ne_true
          simp only [State.enter]
          split
          next => exact ⟨hlate, rfl⟩
          next hidle => exact absurd hlate (hbegun hidle)
          next hidle => exact absurd hlate (hbegun hidle)
          next => exact ⟨hlate, rfl⟩

/-- In every reachable state the registered jobs that have not ended are awaited. -/
theorem collected_of_reachable (h : Reachable settings s) : s.Collected [] := by
  induction h with
  | initial => exact ⟨rfl, fun _ _ hj => absurd (List.mem_of_getElem? hj) List.not_mem_nil⟩
  | step label _ hstep ih => exact ih.transition (transition_of_step hstep)

end State

/-! ## After stopping -/

/-- Once a call that stops the run has returned, every registered job has ended. -/
theorem ended_of_returned (h : Reachable settings s) (hreturned : s.stopReturned = true)
    (hj : s.jobs[n]? = some j) (hregistered : j.point.isRegistered = true) :
    ∃ result, j.point = .ended result := by
  obtain ⟨result, hdone⟩ := (State.drained_of_reachable h).done_of_returned hreturned
  cases hend : j.point.end? with
  | none =>
      have hawaited := (State.collected_of_reachable h).awaited n j hj hregistered hend
      rw [State.awaited, hdone] at hawaited
      rcases hawaited with hawaited | hunseen
      · cases hawaited
      · cases hunseen
  | some result =>
      unfold JobPoint.end? at hend
      split at hend
      next result hpoint => exact ⟨result, hpoint⟩
      next => cases hend

/-- Once a call that stops the run has returned, no units of any importer are outstanding. -/
theorem count_of_returned (h : Reachable settings s) (hreturned : s.stopReturned = true)
    (name : String) : s.units.count name = 0 := by
  obtain ⟨-, hnone⟩ := (State.drained_of_reachable h).over hreturned
  have hjobs : heldByJobs s.jobs name = 0 := by
    apply List.sum_eq_zero_iff_forall_eq_nat.mpr
    intro held hheld
    obtain ⟨j, hj, rfl⟩ := List.mem_map.mp hheld
    obtain ⟨n, hn⟩ := List.mem_iff_getElem?.mp hj
    -- A job holds units only from its registration on and until its read loop ends.
    have hshares : j.point.shares = 0 := by
      cases hregistered : j.point.isRegistered with
      | true =>
          obtain ⟨result, hpoint⟩ := ended_of_returned h hreturned hn hregistered
          rw [hpoint]
          rfl
      | false =>
          cases hpoint : j.point with
          | begun | opening | sizing | dismissing | absent => rfl
          | spawned | queued | gated | readying | reading | submitting | closing | ended =>
              rw [hpoint] at hregistered
              cases hregistered
    rw [Job.held, hshares, Nat.zero_mul]
  rw [State.count_of_reachable h, hjobs, hnone]
  rfl

end

end BulkLoad.Manager
