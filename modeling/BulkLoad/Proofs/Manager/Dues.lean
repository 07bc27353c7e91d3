import BulkLoad.Proofs.Manager.Course
import BulkLoad.Proofs.Manager.Yield
import Mathlib.Algebra.BigOperators.Fin
import Mathlib.Tactic.Abel

/-!
# What is still to come of a run

What is still to come of fixed jobs can be said in every state: `JobSpec.due` says it of a job by
where it stands and how often its reader has answered, `Task.yield` of a task. A step of a job moves
its gain from there to what has come of the run (`JobStep.gain`), like a step of a task.
-/

namespace BulkLoad.Manager

/-- What comes of a batch that is handed to these importers. -/
def batchYield (reply : String → Reply) (default : Nat) (importers : List Importer)
    (batch : Batch) : Yield :=
  yieldOf reply batch.units (portions default importers batch.records)
    (List.replicate batch.records.length false)

/-- What comes of the answers of a reader. The first that is no batch is the last. -/
def readYield (reply : String → Reply) (default : Nat) (importers : List Importer) :
    List BatchOutcome → Yield
  | .batch units records :: rest =>
      batchYield reply default importers ⟨units, records⟩ + readYield reply default importers rest
  | _ => 0

namespace JobSpec

variable (spec : JobSpec) (reply : String → Reply) (default : Nat)

/-- What comes of a reader after this many answers. -/
def dueReading (answered : Nat) : Yield :=
  readYield reply default spec.importers (spec.answers.drop answered)

/-- What comes of a source that is open. -/
def dueSizing (answered : Nat) : Yield :=
  match spec.size with
  | .ok size => ((Stats.addTotal {} size).counters, 0) + spec.dueReading reply default answered
  | .error _ => 0

/-- What comes of a source that is to be opened. -/
def dueOpening (answered : Nat) : Yield :=
  match spec.opened with
  | .ok () => spec.dueSizing reply default answered
  | .error _ => 0

/-- What is still to come of a job at this point, after this many answers of its reader. -/
def due (answered : Nat) : JobPoint → Yield
  | .begun => if spec.importers = [] then 0 else spec.dueOpening reply default answered
  | .opening => spec.dueOpening reply default answered
  | .sizing => spec.dueSizing reply default answered
  | .spawned | .queued | .gated | .readying _ _ | .reading => spec.dueReading reply default answered
  | .submitting batch =>
      batchYield reply default spec.importers batch + spec.dueReading reply default answered
  | .dismissing _ | .absent | .closing _ | .ended _ => 0

/-- What comes of a job. -/
def yield : Yield := spec.due reply default 0 .begun

end JobSpec

/-- Where a job stands. A source that has not been imported yet is like one whose import is about to
begin. -/
def State.pointOf (s : State) (n : Nat) : JobPoint := (s.jobs[n]?).elim .begun Job.point

/-- What is still to come of the tasks. -/
def tasksYield (reply : String → Reply) (tasks : List (Nat × Task)) : Yield :=
  (tasks.map fun entry => entry.2.yield reply).sum

/-- What is still to come of a run of these jobs. -/
def State.due (reply : String → Reply) (default : Nat) (specs : List JobSpec) (s : State) : Yield :=
  ∑ n : Fin specs.length,
      specs[n].due reply default (answersTo s.history n).length (s.pointOf n) +
    tasksYield reply s.tasks

section

variable {reply : String → Reply} {default : Nat} {specs : List JobSpec} {spec : JobSpec}
  {settings : Settings} {s next : State} {n : Nat} {j : Job} {answer : Answer}

/-! ## Tasks -/

/-- A task and the others. -/
theorem tasks_yield_of_lookup (reply : String → Reply) {t : Task} (ht : s.tasks.lookup n = some t)
    (hdistinct : (s.tasks.map Prod.fst).Nodup) :
    ∃ others, tasksYield reply s.tasks = t.yield reply + others ∧
      (∀ after, tasksYield reply (s.putTask n after).tasks = after.yield reply + others) ∧
      tasksYield reply (s.tasks.filter fun (other, _) => other != n) = others := by
  obtain ⟨before, later, htasks, hput, hends⟩ := split_of_lookup ht hdistinct
  refine ⟨tasksYield reply before + tasksYield reply later, ?_, fun after => ?_, ?_⟩
  · rw [htasks]
    simp only [tasksYield, List.map_append, List.map_cons, List.sum_append, List.sum_cons]
    abel
  · have hput : (s.putTask n after).tasks = before ++ (n, after) :: later := hput after
    rw [hput]
    simp only [tasksYield, List.map_append, List.map_cons, List.sum_append, List.sum_cons]
    abel
  · rw [hends]
    simp only [tasksYield, List.map_append, List.sum_append]

/-- A step of a task gains what is no longer to come of the tasks. -/
theorem TaskGain.conserved {t : Task} (h : TaskGain reply s next n t)
    (ht : s.tasks.lookup n = some t) (hdistinct : (s.tasks.map Prod.fst).Nodup) :
    next.yield + tasksYield reply next.tasks = s.yield + tasksYield reply s.tasks := by
  obtain ⟨others, htasks, hput, hends⟩ := tasks_yield_of_lookup reply ht hdistinct
  cases h with
  | goesOn gained after hyield hnext hleft =>
      rw [hyield, hnext, hput, htasks, hleft]
      abel
  | ends gained hyield hnext hleft =>
      rw [hyield, hnext, hends, htasks, hleft]
      abel

/-! ## Jobs -/

/-- What a step of job `n`, which is `j`, gains is no longer to come of it or of the tasks that it
begins. -/
inductive JobGain (reply : String → Reply) (default : Nat) (spec : JobSpec) (s next : State)
    (n : Nat) (j : Job) : Prop where
  | intro (gained : Yield) (added : List (Nat × Task)) (hyield : next.yield = s.yield + gained)
      (htasks : next.tasks = s.tasks ++ added)
      (hleft : spec.due reply default (answersTo s.history n).length j.point =
        gained + spec.due reply default (answersTo next.history n).length (next.pointOf n) +
          tasksYield reply added)

/-- A job that is changed stands where the change puts it. -/
theorem point_of_modify {change : Job → Job} (hj : s.jobs[n]? = some j)
    (hjobs : next.jobs = s.jobs.modify n change) : next.pointOf n = (change j).point := by
  rw [State.pointOf, hjobs, modified_at change hj]
  rfl

/-- A step of a job that neither gets an answer of the reader nor begins a task. -/
theorem JobGain.of_move {point : JobPoint} (gained : Yield) (hpoint : next.pointOf n = point)
    (hyield : next.yield = s.yield + gained) (htasks : next.tasks = s.tasks)
    (hanswers : answersTo next.history n = answersTo s.history n)
    (hleft : ∀ answered, spec.due reply default answered j.point =
      gained + spec.due reply default answered point) :
    JobGain reply default spec s next n j := by
  refine .intro gained [] hyield (htasks.trans (List.append_nil _).symm) ?_
  rw [hanswers, hpoint, hleft]
  exact (add_zero _).symm

/-- A step of a job that gains nothing. -/
theorem JobGain.of_idle {point : JobPoint} (hpoint : next.pointOf n = point)
    (hyield : next.yield = s.yield) (htasks : next.tasks = s.tasks)
    (hanswers : answersTo next.history n = answersTo s.history n)
    (hleft : ∀ answered, spec.due reply default answered j.point =
      spec.due reply default answered point) :
    JobGain reply default spec s next n j :=
  .of_move 0 hpoint (hyield.trans (add_zero _).symm) htasks hanswers fun answered =>
    (hleft answered).trans (zero_add _).symm

/-- A step of a job of which nothing is left to come. -/
theorem JobGain.of_nothing {point : JobPoint} (hpoint : next.pointOf n = point)
    (hyield : next.yield = s.yield) (htasks : next.tasks = s.tasks)
    (hbefore : spec.due reply default (answersTo s.history n).length j.point = 0)
    (hafter : ∀ answered, spec.due reply default answered point = 0) :
    JobGain reply default spec s next n j := by
  refine .intro 0 [] (hyield.trans (add_zero _).symm) (htasks.trans (List.append_nil _).symm) ?_
  rw [hbefore, hpoint, hafter, zero_add]
  exact (add_zero _).symm

/-- A job that goes on is about to read, as long as the run is not being stopped. -/
theorem GoesOn.gain (reply : String → Reply) (default : Nat) (spec : JobSpec) {base : State}
    {importers : List Importer} (h : GoesOn base n j importers next)
    (hrun : base.cancelled = false) (hj : base.jobs[n]? = some j) :
    next.yield = base.yield ∧ next.tasks = base.tasks ∧
      answersTo next.history n = answersTo base.history n ∧
      ∀ answered, spec.due reply default answered (next.pointOf n) =
        spec.dueReading reply default answered := by
  cases h with
  | readying importer rest =>
      exact ⟨rfl, rfl, rfl, fun answered => by rw [point_of_modify hj rfl]; rfl⟩
  | reading => exact ⟨rfl, rfl, rfl, fun answered => by rw [point_of_modify hj rfl]; rfl⟩
  | stopping hstop =>
      rw [hrun] at hstop
      cases hstop

/-- A batch without records raises the counters by its units alone. -/
theorem batch_yield_empty (reply : String → Reply) (default : Nat) (importers : List Importer)
    (units : Nat) :
    batchYield reply default importers ⟨units, []⟩ =
      ((Stats.succeeded {} units 0).counters, 0) := by
  have hnone : portions default importers [] = [] := by
    simp [portions, subBatches, placed]
  simp only [batchYield, hnone, yieldOf]
  rfl

/-- A reader that answers with a batch comes to the batch and to its further answers. -/
theorem due_reading_batch {answered units : Nat} {records : Records}
    (h : spec.answers[answered]? = some (.batch units records)) :
    spec.dueReading reply default answered =
      batchYield reply default spec.importers ⟨units, records⟩ +
        spec.dueReading reply default (answered + 1) := by
  obtain ⟨hlt, hanswer⟩ := List.getElem?_eq_some_iff.mp h
  rw [JobSpec.dueReading, List.drop_eq_getElem_cons hlt, hanswer, readYield]
  rfl

/-- Nothing comes of a reader that answers with anything else. -/
theorem due_reading_other {answered : Nat} {outcome : BatchOutcome}
    (h : spec.answers[answered]? = some outcome) (hother : outcome.isBatch = false) :
    spec.dueReading reply default answered = 0 := by
  obtain ⟨hlt, hanswer⟩ := List.getElem?_eq_some_iff.mp h
  rw [JobSpec.dueReading, List.drop_eq_getElem_cons hlt, hanswer]
  cases outcome with
  | batch => cases hother
  | error | panicked => rfl

/-- A source is opened as its spec says. -/
theorem opened_of_answer {result : Except SourceError Unit} (hspec : specs[n]? = some spec)
    (hpoint : j.point = .opening)
    (hmay : MayAnswer reply specs s (j.point.request n) (.source result)) :
    spec.opened = result := by
  rw [hpoint] at hmay
  simpa [MayAnswer, JobPoint.request, hspec] using hmay

/-- A source is sized as its spec says. -/
theorem sized_of_answer {result : Except SourceError Nat} (hspec : specs[n]? = some spec)
    (hpoint : j.point = .sizing)
    (hmay : MayAnswer reply specs s (j.point.request n) (.size result)) : spec.size = result := by
  rw [hpoint] at hmay
  simpa [MayAnswer, JobPoint.request, hspec] using hmay

/-- A reader answers as the spec says next. -/
theorem read_of_answer {outcome : BatchOutcome} (hspec : specs[n]? = some spec)
    (hpoint : j.point = .reading)
    (hmay : MayAnswer reply specs s (j.point.request n) (.batch outcome)) :
    spec.answers[(answersTo s.history n).length]? = some outcome := by
  rw [hpoint] at hmay
  simpa [MayAnswer, JobPoint.request, hspec] using hmay

/-- An answer of a reader is one more. -/
theorem length_of_read (n : Nat) (outcome : BatchOutcome) (history : List Event) :
    (answersTo (.read n outcome :: history) n).length = (answersTo history n).length + 1 := by
  rw [answers_to_read, if_pos rfl, List.length_append, List.length_singleton]

/-- A step of a job whose requests are answered as its spec says gains what is no longer to come, as
long as nobody cancels the run or closes the pools before the job is over. -/
theorem JobStep.gain (h : JobStep settings s n j answer next) (hj : s.jobs[n]? = some j)
    (hspec : specs[n]? = some spec) (himporters : j.importers = spec.importers)
    (hrun : j.point ≠ .absent → (∀ result, j.point ≠ .ended result) →
      s.cancelled = false ∧ s.readers.closed = false)
    (hopen : ∀ batch, j.point = .submitting batch → s.importers.closed = false)
    (hmay : MayAnswer reply specs s (j.point.request n) answer) :
    JobGain reply settings.batch spec s next n j := by
  have hrunning {point : JobPoint} (hpoint : j.point = point) (habsent : point ≠ .absent)
      (hended : ∀ result, point ≠ .ended result) :
      s.cancelled = false ∧ s.readers.closed = false :=
    hrun (hpoint ▸ habsent) (hpoint ▸ hended)
  cases h with
  -- The source is opened and sized as the spec says, since nobody stops the run.
  | skipped hpoint hnone =>
      refine .of_nothing (point_of_modify hj rfl) rfl rfl ?_ fun _ => rfl
      rw [hpoint, JobSpec.due, if_pos (himporters ▸ hnone)]
  | refused hpoint hsome hstop =>
      obtain ⟨hcancelled, hclosed⟩ := hrunning hpoint nofun nofun
      rw [hcancelled, hclosed] at hstop
      rcases hstop with hstop | hstop <;> cases hstop
  | opening hpoint hsome =>
      refine .of_idle (point_of_modify hj rfl) rfl rfl rfl fun answered => ?_
      rw [hpoint, JobSpec.due, if_neg (himporters ▸ hsome)]
      rfl
  | opened hpoint =>
      refine .of_idle (point_of_modify hj rfl) rfl rfl rfl fun answered => ?_
      rw [hpoint]
      simp only [JobSpec.due, JobSpec.dueOpening, opened_of_answer hspec hpoint hmay]
  | unopened error hpoint =>
      refine .of_nothing (point_of_modify hj rfl) rfl rfl ?_ fun _ => rfl
      rw [hpoint]
      simp only [JobSpec.due, JobSpec.dueOpening, opened_of_answer hspec hpoint hmay]
  | registered size hpoint =>
      refine .of_move ((Stats.addTotal {} size).counters, 0) (point_of_modify hj rfl)
        (Prod.ext (Stats.counters_add_total s.stats size) (add_zero _).symm) rfl rfl
        fun answered => ?_
      rw [hpoint]
      simp only [JobSpec.due, JobSpec.dueSizing, sized_of_answer hspec hpoint hmay]
  | unregistered size lines hpoint hclosed =>
      rw [(hrunning hpoint nofun nofun).2] at hclosed
      cases hclosed
  | unsized error hpoint =>
      refine .of_nothing (point_of_modify hj rfl) rfl rfl ?_ fun _ => rfl
      rw [hpoint]
      simp only [JobSpec.due, JobSpec.dueSizing, sized_of_answer hspec hpoint hmay]
  | dismissed error closed lines hpoint =>
      exact .of_nothing (point_of_modify hj rfl)
        (Prod.ext rfl (executed_report lines s.history)) rfl (by rw [hpoint]; rfl) fun _ => rfl
  -- The job waits until it may read.
  | enqueued hpoint | granted hpoint =>
      refine .of_idle (point_of_modify hj rfl) rfl rfl rfl fun answered => ?_
      rw [hpoint]
      rfl
  | cancelled hpoint hstop =>
      have hrunning : s.cancelled = false := by
        rcases hpoint with hpoint | ⟨importer, rest, hpoint⟩
        · exact (hrunning hpoint nofun nofun).1
        · exact (hrunning hpoint nofun nofun).1
      rw [hrunning] at hstop
      cases hstop
  | released _ hpoint _ hnext | ready _ _ _ hpoint hnext =>
      obtain ⟨hyield, htasks, hanswers, hdue⟩ :=
        hnext.gain reply settings.batch spec (hrunning hpoint nofun nofun).1 hj
      refine .of_idle rfl hyield htasks hanswers fun answered => ?_
      rw [hdue, hpoint]
      rfl
  -- The reader answers.
  | readNothing units _ hpoint hnext =>
      obtain ⟨hyield, htasks, hanswers, hdue⟩ :=
        hnext.gain reply settings.batch spec (hrunning hpoint nofun nofun).1 hj
      refine .intro ((Stats.succeeded {} units 0).counters, 0) []
        (hyield.trans (Prod.ext (Stats.counters_succeeded s.stats units 0) (add_zero _).symm))
        (htasks.trans (List.append_nil _).symm) ?_
      have hlength : (answersTo next.history n).length = (answersTo s.history n).length + 1 := by
        rw [hanswers]
        exact length_of_read n _ s.history
      rw [hdue, hlength, hpoint, ← batch_yield_empty reply settings.batch spec.importers]
      exact (due_reading_batch (read_of_answer hspec hpoint hmay)).trans (add_zero _).symm
  | readBatch units records hpoint hsome =>
      refine .intro 0 [] (add_zero _).symm (List.append_nil _).symm ?_
      refine .trans ?_ (congrArg (· + tasksYield reply []) (zero_add _).symm)
      rw [point_of_modify hj rfl, hpoint]
      refine (due_reading_batch (read_of_answer hspec hpoint hmay)).trans ?_
      rw [← length_of_read n (.batch units records)]
      exact (add_zero _).symm
  | drained hpoint | failed _ hpoint | lost _ hpoint =>
      refine .of_nothing (point_of_modify hj rfl) rfl rfl ?_ fun _ => rfl
      rw [hpoint]
      exact due_reading_other (read_of_answer hspec hpoint hmay) rfl
  -- A batch is handed over, since the importers are open.
  | submitted batch _ hpoint _ _ hnext =>
      obtain ⟨hyield, htasks, hanswers, hdue⟩ :=
        hnext.gain reply settings.batch spec (hrunning hpoint nofun nofun).1 hj
      refine .intro 0 _ (hyield.trans (add_zero _).symm) htasks ?_
      have hbegins : tasksYield reply [(s.nextTask, newTask settings n j batch)] =
          batchYield reply settings.batch spec.importers batch := by
        rw [← himporters]
        exact add_zero _
      rw [hdue, hanswers, hbegins, hpoint, zero_add]
      exact add_comm _ _
  | rejected batch lines _ hpoint hclosed =>
      rw [hopen batch hpoint] at hclosed
      cases hclosed
  | ended result closed lines hpoint =>
      exact .of_nothing (point_of_modify hj rfl)
        (Prod.ext rfl (executed_report lines s.history)) rfl (by rw [hpoint]; rfl) fun _ => rfl

end

end BulkLoad.Manager
