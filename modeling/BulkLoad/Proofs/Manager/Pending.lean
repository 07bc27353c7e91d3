import BulkLoad.Proofs.Manager.Accounting
import BulkLoad.Proofs.Manager.Threads
import Mathlib.Algebra.Order.Ring.Canonical
import Mathlib.Algebra.Order.Ring.Nat

/-!
# The pending units tell of outstanding work

A job has work from its registration until its read loop has ended and its last task is over
(`State.HasWork`). An importer has pending units in just those states in which some job with work
has it, or a call registers such a job, whatever panics, however many jobs share it or list it more
than once, and however the parts of the calls that register jobs lie among the steps of a run. So an
importer looks idle neither between two batches of a job nor between a job and its tasks. None are
left when stopping has returned and no call registers a job, except that a job may need some more
turns of its own if its call kept it only after the jobs had been taken up
(`Threads.pending_of_reachable`).
-/

namespace BulkLoad.Manager

/-- Whether a job at this point has left its read loop. -/
def JobPoint.hasLeft : JobPoint → Bool
  | .closing _ | .ended _ => true
  | .begun | .opening | .sizing | .dismissing _ | .absent | .spawned | .queued | .gated
  | .readying _ _ | .reading | .submitting _ => false

/-- Whether job `n`, which is `j`, has work: it has been registered, and its read loop has not ended
or some task of it is not over. -/
def State.HasWork (s : State) (n : Nat) (j : Job) : Prop :=
  j.point.isRegistered = true ∧
    (j.point.hasLeft = false ∨ ∃ entry ∈ s.tasks, entry.2.job = n)

instance (s : State) (n : Nat) (j : Job) : Decidable (s.HasWork n j) :=
  inferInstanceAs (Decidable (_ ∧ (_ ∨ _)))

/-! ## Who holds units -/

section

variable {settings : Settings} {s : State} {n : Nat} {j : Job} {name : String}

/-- A job holds units from its registration on and until it leaves its read loop. -/
theorem shares_pos_iff {point : JobPoint} :
    0 < point.shares ↔ point.isRegistered = true ∧ point.hasLeft = false := by
  cases point with
  | spawned | queued | gated | readying | reading =>
      exact ⟨fun _ => ⟨rfl, rfl⟩, fun _ => Nat.one_pos⟩
  | submitting => exact ⟨fun _ => ⟨rfl, rfl⟩, fun _ => Nat.two_pos⟩
  | begun | opening | sizing | dismissing | absent =>
      exact ⟨fun h => absurd h (Nat.lt_irrefl 0), fun h => nomatch h.1⟩
  | closing | ended => exact ⟨fun h => absurd h (Nat.lt_irrefl 0), fun h => nomatch h.2⟩

/-- Some importers have a name if one of them has it. -/
theorem named_pos_iff {importers : List Importer} :
    0 < named importers name ↔ ∃ i ∈ importers, i.name = name := by
  rw [named, List.countP_pos_iff]
  simp only [beq_iff_eq]

/-- A job holds units of a name while it has yet to leave its read loop, if one of its importers has
the name. -/
theorem held_pos_iff :
    0 < j.held name ↔ (j.point.isRegistered = true ∧ j.point.hasLeft = false) ∧
      ∃ i ∈ j.importers, i.name = name := by
  rw [Job.held, CanonicallyOrderedAdd.mul_pos, shares_pos_iff, named_pos_iff]

/-- Jobs hold units of a name if one of them does. -/
theorem held_by_jobs_pos_iff {jobs : List Job} :
    0 < heldByJobs jobs name ↔ ∃ j ∈ jobs, 0 < j.held name := by
  rw [heldByJobs, List.sum_pos_iff_exists_pos_nat]
  simp only [List.mem_map, exists_exists_and_eq_and]

/-- Tasks hold units of a name if an importer of one of them has it. -/
theorem held_by_tasks_pos_iff {tasks : List (Nat × Task)} :
    0 < heldByTasks tasks name ↔
      ∃ entry ∈ tasks, ∃ i ∈ entry.2.importers, i.name = name := by
  rw [heldByTasks, List.sum_pos_iff_exists_pos_nat]
  simp only [List.mem_map, exists_exists_and_eq_and, Task.held, named_pos_iff]

/-- An importer has pending units in just those states in which some job with work has it, or
somebody else has taken units of it. -/
theorem State.Holding.count_pos_iff {taken : String → Nat} (h : s.Holding taken) :
    0 < s.units.count name ↔
      (∃ n j, s.jobs[n]? = some j ∧ s.HasWork n j ∧ ∃ i ∈ j.importers, i.name = name) ∨
        0 < taken name := by
  have hheld : 0 < s.units.count name ↔
      (0 < heldByJobs s.jobs name ∨ 0 < heldByTasks s.tasks name) ∨ 0 < taken name := by
    have hunits := h.units name
    omega
  rw [hheld, held_by_jobs_pos_iff, held_by_tasks_pos_iff]
  refine or_congr_left ?_
  constructor
  · rintro (⟨j, hj, hpos⟩ | ⟨entry, hentry, himporter⟩)
    · obtain ⟨n, hn⟩ := List.mem_iff_getElem?.mp hj
      obtain ⟨⟨hregistered, hreads⟩, himporter⟩ := held_pos_iff.mp hpos
      exact ⟨n, j, hn, ⟨hregistered, .inl hreads⟩, himporter⟩
    · obtain ⟨j, hj, hregistered, hsame⟩ := h.owned entry hentry
      exact ⟨_, j, hj, ⟨hregistered, .inr ⟨entry, hentry, rfl⟩⟩, hsame ▸ himporter⟩
  · rintro ⟨n, j, hj, ⟨hregistered, hwork⟩, himporter⟩
    rcases hwork with hreads | ⟨entry, hentry, rfl⟩
    · exact .inl ⟨j, List.mem_of_getElem? hj,
        held_pos_iff.mpr ⟨⟨hregistered, hreads⟩, himporter⟩⟩
    · obtain ⟨other, hother, -, hsame⟩ := h.owned entry hentry
      obtain rfl : j = other := Option.some.inj (hj.symm.trans hother)
      exact .inr ⟨entry, hentry, hsame ▸ himporter⟩

end

/-! ## After stopping -/

/-- How many turns of its own a job at this point needs to give back its units while the run is
being stopped. A job that reads needs more than turns, but none reads any more when stopping is
done. -/
def JobPoint.turnsLeft : JobPoint → Nat
  | .spawned => 3
  | .queued => 2
  | .gated | .readying _ _ => 1
  | .begun | .opening | .sizing | .dismissing _ | .absent | .reading | .submitting _ | .closing _
  | .ended _ => 0

/-- How many turns of their own the jobs need to give back their units. -/
def State.turnsLeft (s : State) : Nat := (s.jobs.map fun j => j.point.turnsLeft).sum

/-- A job that neither needs a turn nor reads holds no units. -/
theorem shares_of_no_turns {point : JobPoint} (hturns : point.turnsLeft = 0)
    (hquiet : point.isFetching = false) : point.shares = 0 := by
  cases point with
  | begun | opening | sizing | dismissing | absent | closing | ended => rfl
  | spawned | queued | gated | readying => cases hturns
  | reading | submitting => cases hquiet

/-- A registered job in its read loop that does not read needs turns to give back its units. -/
theorem turns_of_registered {point : JobPoint} (hregistered : point.isRegistered = true)
    (hreads : point.hasLeft = false) (hquiet : point.isFetching = false) : 0 < point.turnsLeft := by
  cases point with
  | spawned | queued | gated | readying => exact Nat.succ_pos _
  | begun | opening | sizing | dismissing | absent => cases hregistered
  | reading | submitting => cases hquiet
  | closing | ended => cases hreads

/-- A job that needs turns to give back its units has been registered and has not ended. -/
theorem registered_of_turns {point : JobPoint} (hturns : 0 < point.turnsLeft) :
    point.isRegistered = true ∧ point.end? = none := by
  cases point with
  | spawned | queued | gated | readying => exact ⟨rfl, rfl⟩
  | begun | opening | sizing | dismissing | absent | reading | submitting | closing | ended =>
      cases hturns

namespace Threads

variable {settings : Settings} {s next : State} {n : Nat} {j : Job} {name : String}

/-- Whether a label is a turn of its own of one of these jobs: it goes on, or it notices that the
run is being stopped. -/
def Label.IsTurn (jobs : List Nat) (label : Label) : Prop :=
  ∃ n ∈ jobs, label = .step (.answer (.job n) .go) ∨ label = .step (.answer (.job n) .cancelled)

/-- While stopping is done a job that holds units may go on by itself. -/
theorem own_turn (h : s.Sound settings) {result : Result} (hdone : s.run.stopCell = .done result)
    (hj : s.run.jobs[n]? = some j) (hturns : 0 < j.point.turnsLeft) :
    ∃ answer run, (answer = .go ∨ answer = .cancelled) ∧
      s.run.stepJob settings n answer = some run ∧ ∃ change : Job → Job,
        run.jobs = s.run.jobs.modify n change ∧
          (change j).point.turnsLeft + 1 = j.point.turnsLeft := by
  have hclosed : s.run.readers.closed = true := by
    rw [h.collected.closed, hdone]
    rfl
  have hcancelled : s.run.cancelled = true := by
    have hphase := h.drained.phase
    rw [hdone] at hphase
    exact hphase.1
  cases hpoint : j.point with
  | spawned =>
      let queue (j : Job) : Job := { j with point := .queued }
      refine ⟨.go, { s.run with readers := s.run.readers.enqueue n }.modifyJob n queue, .inl rfl,
        ?_, queue, rfl, rfl⟩
      simp only [Manager.State.stepJob, hj, hpoint]
      rfl
  | queued =>
      -- Nobody waits for a worker of a closed pool.
      have hmay : s.run.readers.mayProceed n = true := by
        refine WorkerPool.may_of_closed hclosed ((h.staffed.readers.waiting n).mpr ?_)
        simp [hj, Job.phase, hpoint, WorkerPool.Phase.isWaiting]
      let gate (j : Job) : Job := { j with point := .gated, worker := !s.run.readers.closed }
      refine ⟨.go, { s.run with readers := s.run.readers.grant n }.modifyJob n gate, .inl rfl, ?_,
        gate, rfl, rfl⟩
      simp only [Manager.State.stepJob, hj, hpoint, hmay, if_true, gate]
  | gated | readying =>
      refine ⟨.cancelled, s.run.endReading n j (.ok ()), .inr rfl, ?_,
        fun j => { j with point := .closing (.ok ()) }, rfl, rfl⟩
      simp only [Manager.State.stepJob, hj, hpoint, hcancelled, if_true]
  | begun | opening | sizing | dismissing | absent | reading | submitting | closing | ended =>
      rw [hpoint] at hturns
      cases hturns

/-- Once stopping is done and no call registers a job, a job that is registered and has not ended is
one that was kept too late. -/
theorem kept_late (h : s.Sound settings) {result : Result} (hdone : s.run.stopCell = .done result)
    (hnone : s.registering = []) (hj : s.run.jobs[n]? = some j)
    (hregistered : j.point.isRegistered = true) (hunended : j.point.end? = none) :
    n ∈ s.run.uncollected := by
  have hseen := h.collected.awaited n j hj hregistered hunended
  rw [Manager.State.awaited, State.unseen, hdone, hnone] at hseen
  exact hseen.resolve_left List.not_mem_nil

/-- Once stopping is done and no call registers a job, a job that was kept too late has a turn as
long as one needs turns. -/
theorem exists_turn (h : s.Sound settings) {result : Result} (hdone : s.run.stopCell = .done result)
    (hnone : s.registering = []) (hturns : 0 < s.run.turnsLeft) :
    ∃ label next, Label.IsTurn s.run.uncollected label ∧ step settings s label = some next ∧
      next.run.stopCell = .done result ∧ next.registering = [] ∧
      next.run.uncollected = s.run.uncollected ∧ next.run.turnsLeft + 1 = s.run.turnsLeft := by
  obtain ⟨turns, hmem, hpos⟩ := List.sum_pos_iff_exists_pos_nat.mp hturns
  obtain ⟨j, hj, rfl⟩ := List.mem_map.mp hmem
  obtain ⟨n, hn⟩ := List.mem_iff_getElem?.mp hj
  obtain ⟨hregistered, hunended⟩ := registered_of_turns hpos
  have hlate := kept_late h hdone hnone hn hregistered hunended
  obtain ⟨answer, run, hanswer, hrun, change, hjobs, hchange⟩ := own_turn h hdone hn hpos
  have hstep : step settings s (.step (.answer (.job n) answer)) = some { s with run } := by
    rcases hanswer with rfl | rfl
    all_goals
      show (s.run.stepJob settings n _).map _ = _
      rw [hrun]
      rfl
  have htransition : Transition settings s.run (.answer (.job n) answer) run :=
    transition_of_step hrun
  obtain ⟨-, huncollected⟩ := h.collected.uncollected_of_late (by rw [hdone]; rfl) htransition
  obtain ⟨_, _, hjob⟩ := job_step_of_answer hrun
  refine ⟨_, _, ⟨n, hlate, ?_⟩, hstep, hjob.same_control.stopCell.trans hdone, hnone, huncollected,
    ?_⟩
  · rcases hanswer with rfl | rfl
    · exact .inl rfl
    · exact .inr rfl
  · have hsum := sum_modify (fun j => j.point.turnsLeft) change hn
    show (run.jobs.map _).sum + 1 = (s.run.jobs.map _).sum
    rw [hjobs]
    omega

/-- Once stopping is done and no call registers a job, no importer has pending units if no job needs
turns. -/
theorem count_of_no_turns (h : s.Sound settings) {result : Result}
    (hdone : s.run.stopCell = .done result) (hnone : s.registering = [])
    (hturns : s.run.turnsLeft = 0) (name : String) : s.run.units.count name = 0 := by
  have hphase := h.drained.phase
  rw [hdone] at hphase
  obtain ⟨-, hquiet, htasks⟩ := hphase
  have hjobs : heldByJobs s.run.jobs name = 0 := by
    refine List.sum_eq_zero_iff_forall_eq_nat.mpr fun held hheld => ?_
    obtain ⟨j, hj, rfl⟩ := List.mem_map.mp hheld
    have hidle := List.sum_eq_zero_iff_forall_eq_nat.mp hturns _ (List.mem_map_of_mem hj)
    rw [Job.held, shares_of_no_turns hidle (hquiet j hj), Nat.zero_mul]
  rw [h.holding.units, hjobs, htasks, State.taken, hnone]
  rfl

/-- Once stopping is done and no call registers a job, the turns of the jobs that were kept too late
lead to a state in which no importer has pending units. -/
theorem settles_by_turns (h : Reachable settings s) {result : Result}
    (hdone : s.run.stopCell = .done result) (hnone : s.registering = []) :
    ∃ labels next, run settings s labels = some next ∧
      (∀ label ∈ labels, label.IsTurn s.run.uncollected) ∧
        ∀ name, next.run.units.count name = 0 := by
  have hsound := State.sound_of_reachable h
  -- The turns that are left come down with each turn.
  induction hturns : s.run.turnsLeft generalizing s with
  | zero => exact ⟨[], s, rfl, nofun, count_of_no_turns hsound hdone hnone hturns⟩
  | succ left ih =>
      obtain ⟨label, middle, hturn, hstep, hdone, hnone, huncollected, hleft⟩ :=
        exists_turn hsound hdone hnone (by omega)
      have hmiddle : Reachable settings middle := .step label h hstep
      obtain ⟨labels, next, hlater, hturns, hzero⟩ :=
        ih hmiddle hdone hnone (State.sound_of_reachable hmiddle) (by omega)
      refine ⟨label :: labels, next, Option.bind_eq_some_iff.mpr ⟨middle, hstep, hlater⟩, ?_, hzero⟩
      rw [huncollected] at hturns
      exact List.forall_mem_cons.mpr ⟨hturn, hturns⟩

/-- Calls hold units of a name if one that has yet to hand over its job is to import with it. -/
theorem taken_pos_iff : 0 < s.taken name ↔
    ∃ r ∈ s.registering, r.stage ≠ .handed ∧ ∃ i ∈ r.importers, i.name = name := by
  rw [State.taken, List.sum_pos_iff_exists_pos_nat]
  simp only [List.mem_map, exists_exists_and_eq_and]
  refine exists_congr fun r => and_congr_right fun _ => ?_
  rw [Registration.held, CanonicallyOrderedAdd.mul_pos, named_pos_iff, ← Stage.shares_eq_one_iff]
  refine and_congr_left fun _ => ?_
  cases r.stage with
  | holding | admitted => exact ⟨fun _ => rfl, fun _ => Nat.one_pos⟩
  | handed => exact ⟨fun h => absurd h (Nat.lt_irrefl 0), fun h => absurd h Nat.zero_ne_one⟩

namespace Sharing

/-- Begin to register a job. -/
def register (n : Nat) : List Label := [
  .step (.answer (.job n) .go), .step (.answer (.job n) (.source (.ok ()))),
  .step (.answer (.job n) (.size (.ok 8)))]

/-- Two sources are imported with the same importers, which the first job lists twice. Its only
batch is being imported when its read loop ends, and the second job is still being registered. -/
def labels : List Label :=
  [.step (.import "people" (Sample.importers ++ Sample.importers)),
    .step (.import "towns" Sample.importers)] ++
  register 0 ++ [.goOn 0, .goOn 0, .goOn 0] ++ register 1 ++
  [.call .start, .answer (.caller 0) .go, .answer .starter .go,
    .answer .starter (.client (.ok ())), .answer (.job 0) .go, .answer (.job 0) .go,
    .answer (.job 0) .go, .answer (.job 0) .ready, .answer (.job 0) .ready,
    .answer (.job 0) .ready, .answer (.job 0) .ready,
    .answer (.job 0) (.batch (.batch 4 [["1"], ["2"]])), .answer (.job 0) .go,
    .answer (.job 0) (.batch (.error .eof))].map .step

/-- The task imports its portions, and the run is stopped. -/
def later : List Label :=
  [.answer (.task 0) .go, .answer (.task 0) Sample.executed, .answer (.task 0) .go,
    .answer (.task 0) Sample.executed, .answer (.task 0) .go, .answer (.task 0) .go,
    .answer (.task 0) Sample.executed, .answer (.task 0) .go, .answer (.task 0) Sample.executed,
    .answer (.task 0) .go, .answer (.task 0) .go, .answer (.job 0) (.source (.ok ())),
    .call .stop, .answer (.caller 1) .go, .answer .stopper .go, .answer .stopper .go].map .step

/-- The call that registers the second job finds the readers open just before stopping closes them
and takes up the jobs, so that it keeps its job too late. -/
def overtaken : List Label :=
  [.goOn 1, .step (.answer .stopper .go), .goOn 1, .goOn 1] ++
    [.answer .stopper .go, .answer .stopper .go, .answer .stopper (.client (.ok ())),
      .answer (.caller 1) .go].map .step

/-- The call goes on when stopping has closed the readers. -/
def refused : List Label :=
  .step (.answer .stopper .go) :: .goOn 1 ::
    [.answer (.job 1) (.source (.ok ())), .answer .stopper .go, .answer .stopper .go,
      .answer .stopper (.client (.ok ())), .answer (.caller 1) .go].map .step

/-- The state after some labels. -/
def after (labels : List Label) : State :=
  (run Sample.settings (.initial Sample.settings) labels).getD (.initial Sample.settings)

/-- The state in which a job has left its read loop and its task is under way. -/
def busy : State := after labels

/-- The state after stopping in which a job was kept too late. -/
def late : State := after (labels ++ later ++ overtaken)

/-- The state after stopping in which no job was kept too late. -/
def final : State := after (labels ++ later ++ refused)

end Sharing

end Threads

end BulkLoad.Manager
