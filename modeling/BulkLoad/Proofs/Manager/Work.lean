import BulkLoad.Proofs.Manager.Conduct
import BulkLoad.Proofs.Manager.Growth

/-!
# Who reads and who sends

The work of a run is to ask for batches and to send the statements of an import. Only a job that is
through its gate asks for a batch, and only a task sends a statement (`JobStep.work`,
`TaskStep.work`); starting and stopping do neither. A job is changed by its own steps only
(`job_of_others`), and as long as the gate is closed there is no work at all
(`unworked_of_reachable`).
-/

namespace BulkLoad.Manager

/-- Whether an event is work: a batch is asked for, or a statement of an import is sent. -/
def Event.isWork : Event → Bool
  | .reading _ | .sending _ _ => true
  | _ => false

/-- Whether a job at this point is through its gate and has not ended its read loop. -/
def JobPoint.isWorking : JobPoint → Bool
  | .readying _ _ | .reading | .submitting _ => true
  | _ => false

/-- Whether a job may ask for a batch: it is through its gate, or about to go through it. -/
def State.MayWork (s : State) (j : Job) : Prop :=
  j.point.isWorking = true ∨ j.point = .gated ∧ s.started.released = true

/-- The history grows by events that are not work. -/
def AddsNoWork (s next : State) : Prop :=
  ∃ events, next.history = events ++ s.history ∧ ∀ event ∈ events, event.isWork = false

/-- What a step of job `n`, which is `j`, does to the work: it reads only if it may work. -/
structure JobWork (s next : State) (n : Nat) (j : Job) : Prop where
  history : ∃ events, next.history = events ++ s.history ∧
    ∀ event ∈ events, event.isWork = true → event = .reading n ∧ s.MayWork j
  jobs : ∃ change : Job → Job, next.jobs = s.jobs.modify n change ∧
    ((change j).point.isWorking = true → s.MayWork j)
  tasks : next.tasks = s.tasks ∨ s.MayWork j

section

variable {settings : Settings} {s next : State} {n : Nat} {j : Job} {answer : Answer}

/-! ## Steps without work -/

/-- A history that stays the same grows by no work. -/
theorem AddsNoWork.of_same (h : next.history = s.history) : AddsNoWork s next := Adds.of_same h

/-- A history that grows by one event that is not work. -/
theorem AddsNoWork.of_event (event : Event) (hevent : event.isWork = false)
    (h : next.history = event :: s.history) : AddsNoWork s next :=
  Adds.of_event event hevent h

/-- Growing by no work twice is growing by no work. -/
theorem AddsNoWork.trans {middle : State} (h : AddsNoWork s middle)
    (hnext : AddsNoWork middle next) : AddsNoWork s next := Adds.trans h hnext

/-- Who tells neither of a job nor of a task does no work. -/
theorem AddsNoWork.of_tells {actor : Actor} (h : Adds (TellsOf actor) s next)
    (hjob : ∀ k, actor ≠ .job k) (htask : ∀ k, actor ≠ .task k) : AddsNoWork s next := by
  refine h.mono fun event hevent => ?_
  cases event with
  | reading k => exact absurd (hevent _ rfl).symm (hjob k)
  | sending k statement => exact absurd (hevent _ rfl).symm (htask k)
  | _ => rfl

/-- Reports are no work. -/
theorem AddsNoWork.of_report (lines : List LogLine)
    (h : next.history = lines.map .logged ++ s.history) : AddsNoWork s next :=
  have htells : Adds (TellsOf .starter) s next := .of_report lines h
  .of_tells htells nofun nofun

/-! ## Jobs and tasks -/

/-- A job that does no work. -/
theorem JobWork.of_no_work {change : Job → Job} (h : AddsNoWork s next)
    (hjobs : next.jobs = s.jobs.modify n change)
    (hworking : (change j).point.isWorking = true → s.MayWork j)
    (htasks : next.tasks = s.tasks ∨ s.MayWork j) : JobWork s next n j := by
  obtain ⟨events, hevents, hidle⟩ := h
  refine ⟨⟨events, hevents, ?_⟩, ⟨change, hjobs, hworking⟩, htasks⟩
  intro event hevent hwork
  rw [hidle event hevent] at hwork
  cases hwork

/-- A job that goes on asks for a batch, if anything, after other things that are no work. -/
theorem GoesOn.work {base : State} {importers : List Importer}
    (h : GoesOn base n j importers next) (hbase : AddsNoWork s base) (hjobs : base.jobs = s.jobs)
    (hmay : s.MayWork j) : JobWork s next n j := by
  cases h with
  | readying importer rest =>
      exact .of_no_work (hbase.trans (.of_same rfl)) (congrArg (List.modify · n _) hjobs)
        (fun _ => hmay) (.inr hmay)
  | reading hrun =>
      obtain ⟨events, hevents, hidle⟩ := hbase
      refine ⟨⟨.reading n :: events, congrArg (List.cons (Event.reading n)) hevents, ?_⟩,
        ⟨_, congrArg (List.modify · n _) hjobs, fun _ => hmay⟩, .inr hmay⟩
      intro event hevent hwork
      rcases List.mem_cons.mp hevent with rfl | hevent
      · exact ⟨rfl, hmay⟩
      · rw [hidle event hevent] at hwork
        cases hwork
  | stopping hstop =>
      exact .of_no_work (hbase.trans (.of_event (.sourceClosing n) rfl rfl))
        (congrArg (List.modify · n _) hjobs) (fun _ => hmay) (.inr hmay)

/-- A job asks for a batch only if it may. -/
theorem JobStep.work (h : JobStep settings s n j answer next) : JobWork s next n j := by
  have hworking (hpoint : j.point.isWorking = true) : s.MayWork j := .inl hpoint
  cases h with
  | skipped | refused | unopened | enqueued | granted =>
      exact .of_no_work (.of_same rfl) rfl nofun (.inl rfl)
  | opening => exact .of_no_work (.of_event (.sourceOpening n) rfl rfl) rfl nofun (.inl rfl)
  | opened => exact .of_no_work (.of_event (.sourceOpened n) rfl rfl) rfl nofun (.inl rfl)
  | registered => exact .of_no_work (.of_event (.registered n) rfl rfl) rfl nofun (.inl rfl)
  | unregistered size lines =>
      have hreport : AddsNoWork s (s.report lines) := .of_report lines rfl
      exact .of_no_work (hreport.trans (.of_event (.sourceClosing n) rfl rfl)) rfl nofun
        (.inl rfl)
  | unsized | cancelled =>
      exact .of_no_work (.of_event (.sourceClosing n) rfl rfl) rfl nofun (.inl rfl)
  | dismissed _ _ lines | ended _ _ lines =>
      exact .of_no_work (.of_report lines rfl) rfl nofun (.inl rfl)
  | released _ hpoint hgate hnext => exact hnext.work (.of_same rfl) rfl (.inr ⟨hpoint, hgate⟩)
  | ready _ _ _ hpoint hnext => exact hnext.work (.of_same rfl) rfl (hworking (by rw [hpoint]; rfl))
  | readNothing units _ hpoint hnext =>
      exact hnext.work (.of_event (.read n _) rfl rfl) rfl (hworking (by rw [hpoint]; rfl))
  | readBatch units records hpoint =>
      have hmay := hworking (by rw [hpoint]; rfl)
      exact .of_no_work (.of_event (.read n _) rfl rfl) rfl (fun _ => hmay) (.inl rfl)
  | drained hpoint =>
      have hread : AddsNoWork s (s.record (.read n (.error .eof))) := .of_event _ rfl rfl
      exact .of_no_work (hread.trans (.of_event (.sourceClosing n) rfl rfl)) rfl nofun
        (.inl rfl)
  | failed error hpoint =>
      have hread : AddsNoWork s (s.record (.read n (.error error))) := .of_event _ rfl rfl
      exact .of_no_work (hread.trans (.of_event (.sourceClosing n) rfl rfl)) rfl nofun
        (.inl rfl)
  | lost message hpoint =>
      exact .of_no_work (.of_event (.read n _) rfl rfl) rfl nofun (.inl rfl)
  | submitted batch _ hpoint hmay hopen hnext =>
      exact hnext.work (.of_event (.submitted n _ _) rfl rfl) rfl
        (hworking (by rw [hpoint]; rfl))
  | rejected batch lines _ hpoint hclosed hnext =>
      have hreport : AddsNoWork s (s.report lines) := .of_report lines rfl
      exact hnext.work (hreport.trans (.of_event (.rejected n batch) rfl rfl)) rfl
        (hworking (by rw [hpoint]; rfl))

/-- The end of a portion is no work. -/
theorem Concluded.no_work {t : Task} {portion : Portion} {rest : List Portion}
    {outcome : ImportOutcome} (h : Concluded s n t portion rest outcome next) :
    AddsNoWork s next := by
  have himported : AddsNoWork s (s.record (.imported n portion outcome)) := .of_event _ rfl rfl
  cases h with
  | imported lines => exact himported.trans (.of_report lines rfl)
  | panicked | overflowed => exact himported.trans (.of_same rfl)

/-- A task sends a statement or does no work. -/
theorem TaskStep.work {t : Task} (h : TaskStep settings s n t answer next) :
    (∃ statement, next.history = .sending n statement :: s.history) ∨ AddsNoWork s next := by
  cases h with
  | settled => exact .inr (.of_event (.settled n) rfl rfl)
  | sent portion rest statement => exact .inl ⟨statement, rfl⟩
  | resent => exact .inl ⟨_, rfl⟩
  | rested => exact .inr (.of_same rfl)
  | planned _ _ _ _ _ _ hnext | concluded _ _ _ _ _ _ hnext
  | crashed _ _ _ _ hnext => exact .inr hnext.no_work

/-- What a step does to the work: a source is imported, a job or a task goes on, or no work is done
and jobs, tasks and outstanding units are left alone. -/
inductive WorkStep (settings : Settings) (s : State) : Label → State → Prop where
  | «import» (sourceName : String) (importers : List Importer) :
      WorkStep settings s (.import sourceName importers)
        { s with jobs := s.jobs ++ [{ sourceName, importers }] }
  | job (n : Nat) (j : Job) (answer : Answer) (next : State) (hj : s.jobs[n]? = some j)
      (hstep : JobStep settings s n j answer next) :
      WorkStep settings s (.answer (.job n) answer) next
  | task (n : Nat) (t : Task) (answer : Answer) (next : State) (ht : s.tasks.lookup n = some t)
      (hstep : TaskStep settings s n t answer next) :
      WorkStep settings s (.answer (.task n) answer) next
  | idle (label : Label) (next : State) (hjobs : next.jobs = s.jobs) (htasks : next.tasks = s.tasks)
      (hunits : next.units = s.units) (hidle : AddsNoWork s next) : WorkStep settings s label next

/-- Every transition is such a step. -/
theorem work_step_of_transition {label : Label} (h : Transition settings s label next) :
    WorkStep settings s label next := by
  cases h with
  | «import» sourceName importers => exact .import sourceName importers
  | call | clock => exact .idle _ _ rfl rfl rfl (.of_same rfl)
  | job n j answer _ hj hstep => exact .job n j answer next hj hstep
  | task n t answer _ ht hstep => exact .task n t answer next ht hstep
  | start answer _ hstep =>
      obtain ⟨hjobs, htasks, hunits, -⟩ := hstep.effect.work
      exact .idle _ _ hjobs htasks hunits (.of_tells (hstep.adds .starter) nofun nofun)
  | stop answer _ hstep =>
      obtain ⟨hjobs, htasks, hunits, -⟩ := hstep.effect.work
      exact .idle _ _ hjobs htasks hunits (.of_tells (hstep.adds .stopper) nofun nofun)
  | report answer _ hstep =>
      have hidle : AddsNoWork s next := .of_tells (hstep.adds .reporter) nofun nofun
      cases hstep with
      | ticked | ended => exact .idle _ _ rfl rfl rfl hidle
  | caller n c _ hc hstep =>
      have hidle : AddsNoWork s next := hstep.adds
      cases hstep with
      | waiting | readersDrained | answered => exact .idle _ _ rfl rfl rfl hidle
      | entered | importersDrained =>
          have heffect := enter_effect s n c.wish
          exact .idle _ _ heffect.jobs heffect.tasks heffect.units hidle

/-! ## One job and the others -/

/-- A changed element stands where it stood. -/
theorem modified_at {α : Type} {elements : List α} {k : Nat} {a : α} (change : α → α)
    (ha : elements[k]? = some a) : (elements.modify k change)[k]? = some (change a) := by
  rw [List.getElem?_modify_eq, ha]
  rfl

/-- A step that is not its own leaves a job alone, except that it may join. -/
theorem job_of_others {label : Label} (h : Transition settings s label next)
    (hlabel : label.actor? ≠ some (.job n)) :
    next.jobs[n]? = s.jobs[n]? ∨
      s.jobs[n]? = none ∧ ∃ sourceName importers,
        next.jobs[n]? = some { sourceName, importers } := by
  cases work_step_of_transition h with
  | «import» sourceName importers =>
      rcases Nat.lt_trichotomy n s.jobs.length with hlt | rfl | hgt
      · exact .inl (List.getElem?_append_left hlt)
      · exact .inr ⟨List.getElem?_eq_none (Nat.le_refl _), sourceName, importers,
          List.getElem?_concat_length⟩
      · refine .inl ?_
        rw [List.getElem?_eq_none (Nat.le_of_lt hgt), List.getElem?_eq_none]
        rwa [List.length_append, List.length_singleton]
  | job m other answer _ hother hstep =>
      obtain ⟨change, hjobs, -⟩ := hstep.work.jobs
      have hm : m ≠ n := fun hm => hlabel (hm ▸ rfl)
      exact .inl (hjobs ▸ List.getElem?_modify_ne _ _ hm)
  | task m t answer _ ht hstep => exact .inl (hstep.effect.2.jobs ▸ rfl)
  | idle _ _ hjobs => exact .inl (hjobs ▸ rfl)

/-! ## Behind a closed gate -/

/-- As long as the gate is closed there is no work: no job is through it, there is no task, and no
work has been done. -/
structure State.Unworked (s : State) : Prop where
  jobs : ∀ j ∈ s.jobs, j.point.isWorking = false
  tasks : s.tasks = []
  history : ∀ event ∈ s.history, event.isWork = false

/-- A step without work that leaves jobs and tasks alone keeps a run without work. -/
theorem State.Unworked.same (h : s.Unworked) (hjobs : next.jobs = s.jobs)
    (htasks : next.tasks = s.tasks) (hidle : AddsNoWork s next) : next.Unworked := by
  obtain ⟨events, hevents, hnone⟩ := hidle
  refine ⟨hjobs ▸ h.jobs, htasks ▸ h.tasks, ?_⟩
  intro event hevent
  rw [hevents] at hevent
  exact (List.mem_append.mp hevent).elim (hnone event) (h.history event)

/-- A job that may not work keeps a run without work. -/
theorem State.Unworked.job (h : s.Unworked) (hj : s.jobs[n]? = some j) (hmay : ¬ s.MayWork j)
    (hstep : JobWork s next n j) : next.Unworked := by
  obtain ⟨⟨events, hevents, hwork⟩, ⟨change, hjobs, hworking⟩, htasks⟩ := hstep
  refine ⟨?_, ?_, ?_⟩
  · intro other hother
    rcases mem_modify hj (hjobs ▸ hother) with rfl | hother
    · exact Bool.eq_false_iff.mpr fun hpoint => hmay (hworking hpoint)
    · exact h.jobs other hother
  · exact (htasks.resolve_right hmay).trans h.tasks
  · intro event hevent
    rw [hevents] at hevent
    rcases List.mem_append.mp hevent with hevent | hevent
    · exact Bool.eq_false_iff.mpr fun hdone => hmay (hwork event hevent hdone).2
    · exact h.history event hevent

/-- A step that leaves the gate closed keeps a run without work. -/
theorem State.Unworked.transition {label : Label} (h : s.Unworked)
    (hclosed : s.started.released = false) (hgate : next.started.released = false)
    (hstep : Transition settings s label next) : next.Unworked := by
  cases work_step_of_transition hstep with
  | «import» sourceName importers =>
      refine ⟨?_, h.tasks, h.history⟩
      intro j hj
      rcases List.mem_append.mp hj with hj | hj
      · exact h.jobs j hj
      · rw [List.mem_singleton.mp hj]
        rfl
  | job n j answer _ hj hstep =>
      refine h.job hj ?_ hstep.work
      rintro (hpoint | ⟨-, hopen⟩)
      · rw [h.jobs j (List.mem_of_getElem? hj)] at hpoint
        cases hpoint
      · rw [hclosed] at hopen
        cases hopen
  | task n t answer _ ht hstep =>
      rw [h.tasks] at ht
      cases ht
  | idle _ _ hjobs htasks _ hidle => exact h.same hjobs htasks hidle

/-- A gate that is closed after a step was closed before it. -/
theorem closed_of_step {label : Label} (h : s.Conducted settings)
    (hstep : Transition settings s label next) (hgate : next.started.released = false) :
    s.started.released = false := by
  cases conduct_step_of_transition hstep with
  | same hsame => exact hsame.started ▸ hgate
  | start answer hstep =>
      -- The gate is opened at the end of starting, never before.
      obtain ⟨point, hrunning⟩ := hstep.effect.running
      refine Bool.eq_false_iff.mpr fun hopen => ?_
      rw [h.start.released_iff, hrunning] at hopen
      cases hopen
  | stop answer hstep => exact hstep.effect.started ▸ hgate
  | enter wish heffect => exact heffect.started ▸ hgate

/-- As long as the gate is closed there is no work. -/
theorem unworked_of_reachable (h : Reachable settings s) (hgate : s.started.released = false) :
    s.Unworked := by
  induction h with
  | initial =>
      exact ⟨fun _ hj => absurd hj List.not_mem_nil, rfl,
        fun _ hevent => absurd hevent List.not_mem_nil⟩
  | step label h hstep ih =>
      have htransition := transition_of_step hstep
      have hclosed := closed_of_step (State.conducted_of_reachable h) htransition hgate
      exact (ih hclosed).transition hclosed hgate htransition

end

end BulkLoad.Manager
