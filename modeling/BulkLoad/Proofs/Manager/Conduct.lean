import BulkLoad.Proofs.Hook.Run
import BulkLoad.Proofs.Manager.Draining

/-!
# How a run is started and stopped

The history of a run says what starting and stopping have done: what the hooks of each phase have
said, and what was asked of the client pool. `Proceedings` holds just that, in order, and
`Conducted` says how it bears on where starting and stopping stand. It holds of every state
(`conducted_of_reachable`): the pool is opened only after the hooks before the import have
succeeded, jobs are let go only once it is open, and it is closed only after that, when the hooks
after the import are through.
-/

namespace BulkLoad.Manager

/-- What happens to the client pool: it is asked to open, it has opened, or it is asked to close. -/
inductive PoolEvent where
  | opening
  | opened
  | closing
deriving DecidableEq

/-- What an event says about the client pool. -/
def Event.pool? : Event → Option PoolEvent
  | .poolOpening => some .opening
  | .poolOpened => some .opened
  | .poolClosing => some .closing
  | _ => none

/-- What an event says about the hooks of a phase. -/
def Event.hook? (phase : HookPhase) : Event → Option HookEvent
  | .hook other event => if other = phase then some event else none
  | _ => none

/-- What starting and stopping have done: the events of the hooks before and after the import, and
those of the client pool, each in order. -/
structure Proceedings where
  before : List HookEvent
  after : List HookEvent
  pool : List PoolEvent

/-- The proceedings in a history, which has its latest event first. -/
def Proceedings.of (history : List Event) : Proceedings where
  before := (history.filterMap (Event.hook? .before)).reverse
  after := (history.filterMap (Event.hook? .after)).reverse
  pool := (history.filterMap Event.pool?).reverse

/-- The proceedings so far. -/
def State.proceedings (s : State) : Proceedings := .of s.history

/-- Whether stopping has looked whether the client pool is open, and closes it if it was. -/
def hasLooked : Cell StopPoint → Bool
  | .running (.closing _) | .done _ => true
  | .idle | .running .begun | .running (.drainingReaders _) | .running (.drainingImporters _)
  | .running (.collecting _ _) | .running .joining | .running (.hooks _) => false

/-- What starting has done by each of its points, given its hooks and whether the jobs are let go.
-/
def StartPhase (hooks : List Hook) (released : Bool) (p : Proceedings) : Cell StartPoint → Prop
  | .idle | .running .begun => p.before = [] ∧ p.pool = [] ∧ released = false
  | .running (.hooks run) =>
      (HookProgress.running run).Follows (hooks.flatMap Hook.sent) p.before ∧ p.pool = [] ∧
        released = false
  | .running .opening =>
      Executed (hooks.flatMap Hook.sent) p.before [] ∧ p.pool = [.opening] ∧ released = false
  | .done (.ok ()) =>
      Executed (hooks.flatMap Hook.sent) p.before [] ∧ [.opening, .opened] <+: p.pool ∧
        released = true
  | .done (.error _) => Answered p.before ∧ p.pool <+: [.opening] ∧ released = false

/-- How the proceedings bear on a state: starting has done what it says, the pool is opened before
it is closed and each at most once, the flag tells whether it is open, no hook runs after the import
before both worker pools were found empty, and the pool is not closed before stopping has looked. -/
structure State.Conducted (settings : Settings) (s : State) : Prop where
  start : StartPhase settings.hooks.before s.started.released s.proceedings s.startCell
  pool : s.proceedings.pool <+: [.opening, .opened, .closing]
  flag : s.poolOpened = true ↔ s.proceedings.pool = [.opening, .opened]
  silent : isLate s.stopCell = false → s.proceedings.after = []
  unclosed : hasLooked s.stopCell = false → .closing ∉ s.proceedings.pool

namespace Proceedings

/-- Reports are no proceedings. -/
@[simp] theorem of_report (lines : List LogLine) (history : List Event) :
    of (lines.map .logged ++ history) = of history := by
  induction lines with
  | nil => rfl
  | cons line lines ih => exact ih

/-- What the hooks of a phase say adds to a part of the proceedings what this part takes from it. -/
theorem filter_map_hooks {α : Type} (f : Event → Option α) (phase : HookPhase)
    (events : List HookEvent) (history : List Event) :
    (((events.map (Event.hook phase)).reverse ++ history).filterMap f).reverse =
      (history.filterMap f).reverse ++ events.filterMap fun event => f (.hook phase event) := by
  rw [List.filterMap_append, List.reverse_append, List.filterMap_reverse, List.reverse_reverse,
    List.filterMap_map]
  rfl

/-- What the hooks before the import say is added. -/
theorem of_hooks_before (events : List HookEvent) (history : List Event) :
    of ((events.map (Event.hook .before)).reverse ++ history) =
      { of history with before := (of history).before ++ events } := by
  simp only [of, filter_map_hooks]
  simp [Event.hook?, Event.pool?]

/-- What the hooks after the import say is added. -/
theorem of_hooks_after (events : List HookEvent) (history : List Event) :
    of ((events.map (Event.hook .after)).reverse ++ history) =
      { of history with after := (of history).after ++ events } := by
  simp only [of, filter_map_hooks]
  simp [Event.hook?, Event.pool?]

/-- What happens to the pool is added. -/
theorem of_pool (event : Event) {change : PoolEvent} (hchange : event.pool? = some change)
    (history : List Event) :
    of (event :: history) = { of history with pool := (of history).pool ++ [change] } := by
  cases event with
  | poolOpening | poolOpened | poolClosing =>
      cases hchange
      simp [of, List.filterMap_cons, Event.pool?, Event.hook?]
  | _ => cases hchange

end Proceedings

/-! ## What the hooks add to the proceedings -/

namespace State

/-- What the hooks before the import say is added, and once they have succeeded the pool is asked to
open. -/
theorem proceedings_start_hooks (s : State) (graph : String) (progress : HookProgress)
    (events : List HookEvent) :
    ((s.recordHooks .before events).afterStartHooks graph progress).proceedings =
      { s.proceedings with
        before := s.proceedings.before ++ events
        pool := s.proceedings.pool ++ if progress.succeeded then [.opening] else [] } := by
  have hof := Proceedings.of_hooks_before events s.history
  match progress with
  | .running run =>
      refine hof.trans ?_
      rw [← proceedings]
      simp [HookProgress.succeeded]
  | .ended (.error error) =>
      refine hof.trans ?_
      rw [← proceedings]
      simp [HookProgress.succeeded]
  | .ended (.ok ()) =>
      have hopening := Proceedings.of_pool .poolOpening rfl
        ((events.map (Event.hook .before)).reverse ++ s.history)
      rw [hof] at hopening
      exact hopening

/-- What the hooks after the import say is added, and once they have ended the pool is asked to
close if it is open. -/
theorem proceedings_stop_hooks (s : State) (graph : String) (progress : HookProgress)
    (events : List HookEvent) :
    ((s.recordHooks .after events).afterStopHooks graph progress).proceedings =
      { s.proceedings with
        after := s.proceedings.after ++ events
        pool := s.proceedings.pool ++
          if progress.isEnded && s.poolOpened then [.closing] else [] } := by
  have hof := Proceedings.of_hooks_after events s.history
  have hreport (lines : List LogLine) :=
    (Proceedings.of_report lines (s.recordHooks .after events).history).trans hof
  have hhooked := (s.recordHooks .after events).stop_hooked graph progress
  generalize (s.recordHooks .after events).afterStopHooks graph progress = next at hhooked ⊢
  cases hhooked with
  | running run =>
      refine hof.trans ?_
      rw [← proceedings]
      simp [HookProgress.isEnded]
  | closing result lines hopened =>
      have hopened : s.poolOpened = true := hopened
      have hclosing := Proceedings.of_pool .poolClosing rfl
        (lines.map .logged ++ (s.recordHooks .after events).history)
      rw [hreport] at hclosing
      refine hclosing.trans ?_
      rw [← proceedings]
      simp [hopened, HookProgress.isEnded]
  | done result lines hunopened =>
      have hunopened : s.poolOpened = false := hunopened
      refine (hreport lines).trans ?_
      rw [← proceedings]
      simp [hunopened]

/-- The hooks before the import leave the outstanding units alone. -/
theorem units_start_hooks (s : State) (graph : String) (progress : HookProgress) :
    (s.afterStartHooks graph progress).units = s.units := by
  match progress with
  | .running run => rfl
  | .ended (.ok ()) => rfl
  | .ended (.error error) => rfl

/-- After their hooks stopping has looked for the client pool, which is then not open any more. -/
theorem control_stop_hooks (s : State) (graph : String) (progress : HookProgress) :
    (s.afterStopHooks graph progress).started = s.started ∧
      (s.afterStopHooks graph progress).startCell = s.startCell ∧
      isLate (s.afterStopHooks graph progress).stopCell = true ∧
      hasLooked (s.afterStopHooks graph progress).stopCell = progress.isEnded ∧
      (s.afterStopHooks graph progress).poolOpened = (s.poolOpened && !progress.isEnded) ∧
      (s.afterStopHooks graph progress).units = s.units := by
  have hhooked := s.stop_hooked graph progress
  generalize s.afterStopHooks graph progress = next at hhooked ⊢
  cases hhooked with
  | running => exact ⟨rfl, rfl, rfl, rfl, (Bool.and_true _).symm, rfl⟩
  | closing => exact ⟨rfl, rfl, rfl, rfl, (Bool.and_false _).symm, rfl⟩
  | done result lines hunopened =>
      refine ⟨rfl, rfl, rfl, rfl, ?_, rfl⟩
      rw [hunopened]
      exact hunopened

end State

/-! ## What the actors do to the proceedings -/

/-- What everyone but starting and stopping leaves alone, beside the cells of the two. -/
structure SameConduct (s next : State) : Prop where
  startCell : next.startCell = s.startCell
  stopCell : next.stopCell = s.stopCell
  started : next.started = s.started
  poolOpened : next.poolOpened = s.poolOpened
  proceedings : next.proceedings = s.proceedings

section

variable {settings : Settings} {s next : State} {n : Nat} {j : Job}

/-- A job that goes on neither starts nor stops the run. -/
theorem GoesOn.same_conduct {importers : List Importer} (h : GoesOn s n j importers next) :
    SameConduct s next := by
  cases h with
  | readying | reading | stopping => exact ⟨rfl, rfl, rfl, rfl, rfl⟩

/-- A job neither starts nor stops the run. -/
theorem JobStep.same_conduct {answer : Answer} (h : JobStep settings s n j answer next) :
    SameConduct s next := by
  cases h with
  | skipped | refused | opening | opened | unopened | registered | unsized | enqueued | granted
  | cancelled | readBatch | drained | failed | lost => exact ⟨rfl, rfl, rfl, rfl, rfl⟩
  | unregistered _ lines | dismissed _ _ lines | ended _ _ lines =>
      exact ⟨rfl, rfl, rfl, rfl, Proceedings.of_report lines s.history⟩
  | released _ _ _ hnext | ready _ _ _ _ hnext => exact hnext.same_conduct
  | readNothing _ _ _ hnext | submitted _ _ _ _ _ hnext =>
      obtain ⟨hstart, hstop, hstarted, hopened, hproceedings⟩ := hnext.same_conduct
      exact ⟨hstart, hstop, hstarted, hopened, hproceedings⟩
  | rejected _ lines _ _ _ hnext =>
      obtain ⟨hstart, hstop, hstarted, hopened, hproceedings⟩ := hnext.same_conduct
      exact ⟨hstart, hstop, hstarted, hopened,
        hproceedings.trans (Proceedings.of_report lines s.history)⟩

/-- The end of a portion neither starts nor stops the run. -/
theorem Concluded.same_conduct {t : Task} {portion : Portion} {rest : List Portion}
    {outcome : ImportOutcome} (h : Concluded s n t portion rest outcome next) :
    SameConduct s next := by
  cases h with
  | imported lines =>
      exact ⟨rfl, rfl, rfl, rfl,
        Proceedings.of_report lines (.imported n portion outcome :: s.history)⟩
  | panicked | overflowed => exact ⟨rfl, rfl, rfl, rfl, rfl⟩

/-- A task neither starts nor stops the run. -/
theorem TaskStep.same_conduct {t : Task} {answer : Answer}
    (h : TaskStep settings s n t answer next) : SameConduct s next := by
  cases h with
  | settled | sent | rested | resent => exact ⟨rfl, rfl, rfl, rfl, rfl⟩
  | planned _ _ _ _ _ _ hnext | concluded _ _ _ _ _ _ hnext
  | crashed _ _ _ _ hnext => exact hnext.same_conduct

end

/-! ## What starting and stopping add to the proceedings -/

/-- What starting and stopping leave alone: jobs, tasks, outstanding units and calls. -/
structure SameWork (s next : State) : Prop where
  jobs : next.jobs = s.jobs
  tasks : next.tasks = s.tasks
  units : next.units = s.units
  calls : next.calls = s.calls

/-- What a step of starting does: it adds what the hooks before the import say, and asks the pool to
open or finds it open. -/
structure StartEffect (s next : State) : Prop where
  proceedings : ∃ events changes, next.proceedings = { s.proceedings with
      before := s.proceedings.before ++ events, pool := s.proceedings.pool ++ changes } ∧
    .closing ∉ changes
  running : ∃ point, s.startCell = .running point
  stopCell : next.stopCell = s.stopCell
  cancelled : next.cancelled = s.cancelled
  work : SameWork s next

/-- What a step of stopping does: it adds what the hooks after the import say, and asks the pool to
close when it looks whether it is open and finds that it is. -/
structure StopEffect (s next : State) : Prop where
  proceedings : ∃ events, next.proceedings = { s.proceedings with
    after := s.proceedings.after ++ events
    pool := s.proceedings.pool ++
      if !hasLooked s.stopCell && hasLooked next.stopCell && s.poolOpened then [.closing] else [] }
  looked : hasLooked s.stopCell = true → hasLooked next.stopCell = true
  running : ∃ point, s.stopCell = .running point
  startCell : next.startCell = s.startCell
  started : next.started = s.started
  cancelled : s.cancelled = true → next.cancelled = true
  work : SameWork s next

/-- What calling for a body does: it begins if it is idle. -/
structure EnterEffect (s next : State) (wish : Wish) : Prop where
  proceedings : next.proceedings = s.proceedings
  started : next.started = s.started
  poolOpened : next.poolOpened = s.poolOpened
  cancelled : next.cancelled = s.cancelled
  jobs : next.jobs = s.jobs
  tasks : next.tasks = s.tasks
  units : next.units = s.units
  startCell : next.startCell = s.startCell ∨
    s.startCell = .idle ∧ next.startCell = .running .begun
  stopCell : next.stopCell = s.stopCell ∨
    wish ≠ .start ∧ s.stopCell = .idle ∧ next.stopCell = .running .begun
  calls : ∃ n, next.calls = (s.moveCall n .awaiting).calls

/-- Calling for a body has such an effect. -/
theorem enter_effect (s : State) (n : Nat) (wish : Wish) :
    EnterEffect s (s.enter n wish) wish := by
  simp only [State.enter]
  split
  next hidle => exact ⟨rfl, rfl, rfl, rfl, rfl, rfl, rfl, .inr ⟨hidle, rfl⟩, .inl rfl, n, rfl⟩
  next hidle =>
    exact ⟨rfl, rfl, rfl, rfl, rfl, rfl, rfl, .inl rfl, .inr ⟨by decide, hidle, rfl⟩, n, rfl⟩
  next hidle =>
    exact ⟨rfl, rfl, rfl, rfl, rfl, rfl, rfl, .inl rfl, .inr ⟨by decide, hidle, rfl⟩, n, rfl⟩
  next => exact ⟨rfl, rfl, rfl, rfl, rfl, rfl, rfl, .inl rfl, .inl rfl, n, rfl⟩

section

variable {settings : Settings} {s next : State} {answer : Answer}

/-- Every step of starting has such an effect. -/
theorem StartStep.effect (h : StartStep settings s answer next) : StartEffect s next := by
  cases h with
  | stopped hcell | unopened _ hcell =>
      have hnothing : s.proceedings = { s.proceedings with
          before := s.proceedings.before ++ [], pool := s.proceedings.pool ++ [] } := by
        rw [List.append_nil, List.append_nil]
      exact ⟨⟨[], [], hnothing, List.not_mem_nil⟩, ⟨_, hcell⟩, rfl, rfl, ⟨rfl, rfl, rfl, rfl⟩⟩
  | opened hcell =>
      have hopened := Proceedings.of_pool .poolOpened rfl s.history
      refine ⟨⟨[], [.opened], hopened.trans ?_, by decide⟩, ⟨_, hcell⟩, rfl, rfl,
        ⟨rfl, rfl, rfl, rfl⟩⟩
      rw [List.append_nil]
      rfl
  | begun progress events hcell | hooked _ _ progress events hcell =>
      obtain ⟨hsame, hstop⟩ :=
        (s.recordHooks .before events).after_start_hooks_same settings.graphName progress
      have hproceedings := s.proceedings_start_hooks settings.graphName progress events
      refine ⟨⟨events, _, hproceedings, ?_⟩, ⟨_, hcell⟩, hstop, hsame.cancelled, hsame.jobs,
        hsame.tasks, State.units_start_hooks _ _ _, hsame.calls⟩
      split <;> decide

/-- Away from the hooks stopping adds nothing to the proceedings. -/
theorem StopEffect.of_same {point : StopPoint} (hproceedings : next.proceedings = s.proceedings)
    (hlooked : hasLooked next.stopCell = hasLooked s.stopCell)
    (hstart : next.startCell = s.startCell) (hstarted : next.started = s.started)
    (hcancelled : s.cancelled = true → next.cancelled = true) (hwork : SameWork s next)
    (hcell : s.stopCell = .running point) : StopEffect s next := by
  refine ⟨⟨[], ?_⟩, hlooked.trans, ⟨point, hcell⟩, hstart, hstarted, hcancelled, hwork⟩
  rw [hproceedings, hlooked, Bool.not_and_self]
  simp

/-- The hooks after the import have run by the time stopping looks. -/
theorem StopEffect.of_hooks (graph : String) (lines : List LogLine) (progress : HookProgress)
    (events : List HookEvent) {point : StopPoint} (hcell : s.stopCell = .running point)
    (hearly : hasLooked s.stopCell = false) :
    StopEffect s
      (((s.report lines).recordHooks .after events).afterStopHooks graph progress) := by
  obtain ⟨hstarted, hstart, -, hlooks, -, hunits⟩ :=
    ((s.report lines).recordHooks .after events).control_stop_hooks graph progress
  obtain ⟨hsame, -⟩ :=
    ((s.report lines).recordHooks .after events).after_stop_hooks_same graph progress
  have hproceedings := (s.report lines).proceedings_stop_hooks graph progress events
  have hreport : (s.report lines).proceedings = s.proceedings :=
    Proceedings.of_report lines s.history
  refine ⟨⟨events, ?_⟩, fun hlooked => ?_, ⟨point, hcell⟩, hstart, hstarted,
    hsame.cancelled.trans, hsame.jobs, hsame.tasks, hunits, hsame.calls⟩
  · rw [hproceedings, hreport, hearly, hlooks]
    rfl
  · rw [hearly] at hlooked
    cases hlooked

/-- Every step of stopping has such an effect. -/
theorem StopStep.effect (h : StopStep settings s answer next) : StopEffect s next := by
  cases h with
  | begun hcell =>
      exact .of_same rfl (by rw [hcell]; rfl) rfl rfl (fun _ => rfl) ⟨rfl, rfl, rfl, rfl⟩ hcell
  | readersDrained _ hcell | importersDrained _ hcell =>
      exact .of_same rfl (by rw [hcell]; rfl) rfl rfl id ⟨rfl, rfl, rfl, rfl⟩ hcell
  | collected _ _ _ _ _ _ lines hcell | joining _ lines hcell =>
      exact .of_same (Proceedings.of_report lines s.history) (by rw [hcell]; rfl) rfl rfl id
        ⟨rfl, rfl, rfl, rfl⟩ hcell
  | unhooked lines hcell =>
      obtain ⟨point, hrunning, hearly⟩ :
          ∃ point, s.stopCell = .running point ∧ hasLooked s.stopCell = false := by
        rcases hcell with ⟨failed, hcell, -⟩ | ⟨hcell, -⟩ <;> rw [hcell] <;> exact ⟨_, rfl, rfl⟩
      exact .of_hooks settings.graphName lines _ _ hrunning hearly
  | hooked run answer progress events hcell hreceive =>
      exact .of_hooks settings.graphName [] progress events hcell (by rw [hcell]; rfl)
  | closed result outcome hcell =>
      cases outcome with
      | ok | error => exact .of_same rfl (by rw [hcell]; rfl) rfl rfl id ⟨rfl, rfl, rfl, rfl⟩ hcell

end

/-! ## Who starts and stops the run -/

/-- What a step does to the conduct of a run: starting or stopping goes on, a call makes one of them
begin, or nothing happens to it. -/
inductive ConductStep (settings : Settings) (s next : State) : Prop where
  | same (hsame : SameConduct s next) (hcancelled : next.cancelled = s.cancelled)
  | start (answer : Answer) (hstep : StartStep settings s answer next)
  | stop (answer : Answer) (hstep : StopStep settings s answer next)
  | enter (wish : Wish) (heffect : EnterEffect s next wish)

/-- Every transition is such a step. -/
theorem conduct_step_of_transition {settings : Settings} {s next : State} {label : Label}
    (h : Transition settings s label next) : ConductStep settings s next := by
  cases h with
  | «import» | call | clock => exact .same ⟨rfl, rfl, rfl, rfl, rfl⟩ rfl
  | job n j answer _ hj hstep => exact .same hstep.same_conduct hstep.same_control.cancelled
  | task n t answer _ ht hstep => exact .same hstep.same_conduct hstep.effect.1.cancelled
  | start answer _ hstep => exact .start answer hstep
  | stop answer _ hstep => exact .stop answer hstep
  | report answer _ hstep =>
      cases hstep with
      | ticked | ended => exact .same ⟨rfl, rfl, rfl, rfl, rfl⟩ rfl
  | caller n c _ hc hstep =>
      cases hstep with
      | waiting | readersDrained | answered => exact .same ⟨rfl, rfl, rfl, rfl, rfl⟩ rfl
      | entered | importersDrained => exact .enter c.wish (enter_effect s n c.wish)

/-- A run that is being stopped stays so. -/
theorem cancelled_of_transition {settings : Settings} {s next : State} {label : Label}
    (h : Transition settings s label next) (hstop : s.cancelled = true) :
    next.cancelled = true := by
  cases conduct_step_of_transition h with
  | same _ hcancelled => exact hcancelled.trans hstop
  | start answer hstep => exact hstep.effect.cancelled.trans hstop
  | stop answer hstep => exact hstep.effect.cancelled hstop
  | enter wish heffect => exact heffect.cancelled.trans hstop

/-! ## The proceedings of every state -/

section

variable {settings : Settings} {s next : State} {n : Nat} {hooks : List Hook} {released : Bool}
  {p : Proceedings} {cell : Cell StartPoint}

/-- The pool has opened only if starting has succeeded. -/
theorem StartPhase.opened_iff (h : StartPhase hooks released p cell) :
    .opened ∈ p.pool ↔ cell = .done (.ok ()) := by
  unfold StartPhase at h
  split at h
  · simp [h.2.1]
  · simp [h.2.1]
  · simp [h.2.1]
  · simp [h.2.1]
  · simp [h.2.1.subset (by simp : PoolEvent.opened ∈ [PoolEvent.opening, .opened])]
  · have hnot : PoolEvent.opened ∉ p.pool := fun hmem => by simpa using h.2.1.subset hmem
    simp [hnot]

/-- The jobs are let go only if starting has succeeded. -/
theorem StartPhase.released_iff (h : StartPhase hooks released p cell) :
    released = true ↔ cell = .done (.ok ()) := by
  unfold StartPhase at h
  split at h
  · simp [h.2.2]
  · simp [h.2.2]
  · simp [h.2.2]
  · simp [h.2.2]
  · simp [h.2.2]
  · simp [h.2.2]

/-- Starting has succeeded only after the hooks before the import and the opening of the pool. -/
theorem StartPhase.executed (h : StartPhase hooks released p cell) (hcell : cell = .done (.ok ())) :
    Executed (hooks.flatMap Hook.sent) p.before [] ∧ [.opening, .opened] <+: p.pool := by
  rw [hcell] at h
  exact ⟨h.1, h.2.1⟩

/-- Closing the open pool, and what is said after the import, does not concern starting. -/
theorem StartPhase.after (h : StartPhase hooks released p cell) {after : Proceedings}
    (hbefore : after.before = p.before)
    (hpool : after.pool = p.pool ∨ .opened ∈ p.pool ∧ after.pool = p.pool ++ [.closing]) :
    StartPhase hooks released after cell := by
  have hexecuted := h.executed
  rcases hpool with hpool | ⟨hopened, hpool⟩
  · unfold StartPhase at h ⊢
    rw [hbefore, hpool]
    exact h
  · have hcell := h.opened_iff.mp hopened
    obtain ⟨hdone, hprefix⟩ := h.executed hcell
    have hreleased := h.released_iff.mpr hcell
    rw [hcell]
    refine ⟨hbefore ▸ hdone, ?_, hreleased⟩
    rw [hpool]
    exact hprefix.trans (List.prefix_append _ _)

namespace State

/-- Where nothing of starting and stopping differs but where they stand, the proceedings bear on the
state as before. -/
theorem Conducted.same (h : s.Conducted settings) (hproceedings : next.proceedings = s.proceedings)
    (hstarted : next.started = s.started) (hopened : next.poolOpened = s.poolOpened)
    (hstart : next.startCell = s.startCell ∨
      s.startCell = .idle ∧ next.startCell = .running .begun)
    (hlate : isLate next.stopCell = false → isLate s.stopCell = false)
    (hlooked : hasLooked next.stopCell = false → hasLooked s.stopCell = false) :
    next.Conducted settings := by
  refine ⟨?_, ?_, ?_, ?_, ?_⟩
  · rw [hproceedings, hstarted]
    rcases hstart with hstart | ⟨hidle, hbegun⟩
    · rw [hstart]
      exact h.start
    · have hnothing := h.start
      rw [hidle] at hnothing
      rw [hbegun]
      exact hnothing
  · rw [hproceedings]
    exact h.pool
  · rw [hproceedings, hopened]
    exact h.flag
  · intro hnext
    rw [hproceedings]
    exact h.silent (hlate hnext)
  · intro hnext
    rw [hproceedings]
    exact h.unclosed (hlooked hnext)

/-- What starting does leaves stopping where it is, and concerns the pool only by opening it. -/
theorem Conducted.of_start (h : s.Conducted settings) {before : List HookEvent}
    {pool : List PoolEvent} (hnext : next.proceedings = { s.proceedings with before, pool })
    (hstart : StartPhase settings.hooks.before next.started.released
      { s.proceedings with before, pool } next.startCell)
    (hstop : next.stopCell = s.stopCell)
    (hpool : pool = s.proceedings.pool ∧ next.poolOpened = s.poolOpened ∨
      pool = [.opening] ∧ next.poolOpened = false ∨
      pool = [.opening, .opened] ∧ next.poolOpened = true) :
    next.Conducted settings := by
  constructor
  · rw [hnext]
    exact hstart
  · rw [hnext]
    rcases hpool with ⟨rfl, -⟩ | ⟨rfl, -⟩ | ⟨rfl, -⟩
    · exact h.pool
    · exact ⟨[.opened, .closing], rfl⟩
    · exact ⟨[.closing], rfl⟩
  · rw [hnext]
    rcases hpool with ⟨rfl, hflag⟩ | ⟨rfl, hflag⟩ | ⟨rfl, hflag⟩
    · rw [hflag]
      exact h.flag
    · simp [hflag]
    · simp [hflag]
  · rw [hnext, hstop]
    exact h.silent
  · rw [hnext, hstop]
    intro hlooked
    rcases hpool with ⟨rfl, -⟩ | ⟨rfl, -⟩ | ⟨rfl, -⟩
    · exact h.unclosed hlooked
    · simp
    · simp

/-- Before the pool has opened the flag is down. -/
theorem Conducted.flag_of_unopened (h : s.Conducted settings)
    (hpool : .opened ∉ s.proceedings.pool) : s.poolOpened = false := by
  rw [← Bool.not_eq_true, h.flag]
  intro hopened
  rw [hopened] at hpool
  exact hpool (by decide)

/-- The hooks before the import are conducted. -/
theorem Conducted.hooks_before (h : s.Conducted settings) (graph : String)
    {progress : HookProgress} {events : List HookEvent}
    (hpool : s.proceedings.pool = []) (hgate : s.started.released = false)
    (hfollows : progress.Follows (settings.hooks.before.flatMap Hook.sent)
      (s.proceedings.before ++ events)) :
    ((s.recordHooks .before events).afterStartHooks graph progress).Conducted settings := by
  have hnext := s.proceedings_start_hooks graph progress events
  rw [hpool, List.nil_append] at hnext
  match progress with
  | .running run => exact h.of_start hnext ⟨hfollows, rfl, hgate⟩ rfl (.inl ⟨hpool.symm, rfl⟩)
  | .ended (.error error) =>
      exact h.of_start hnext ⟨hfollows, List.nil_prefix, hgate⟩ rfl (.inl ⟨hpool.symm, rfl⟩)
  | .ended (.ok ()) =>
      have hflag : s.poolOpened = false :=
        h.flag_of_unopened (by rw [hpool]; exact List.not_mem_nil)
      exact h.of_start hnext ⟨hfollows, rfl, hgate⟩ rfl (.inr (.inl ⟨rfl, hflag⟩))

/-- Starting is conducted. -/
theorem Conducted.start_step (h : s.Conducted settings) {answer : Answer}
    (hstep : StartStep settings s answer next) : next.Conducted settings := by
  have hphase := h.start
  cases hstep with
  | stopped hcell hstop =>
      rw [hcell] at hphase
      obtain ⟨hbefore, hpool, hgate⟩ := hphase
      have hanswered : Answered s.proceedings.before := by
        rw [hbefore]
        rfl
      exact h.of_start rfl ⟨hanswered, hpool ▸ List.nil_prefix, hgate⟩ rfl (.inl ⟨rfl, rfl⟩)
  | begun progress events hcell hrun hbegin =>
      rw [hcell] at hphase
      obtain ⟨hbefore, hpool, hgate⟩ := hphase
      refine h.hooks_before settings.graphName hpool hgate ?_
      rw [hbefore]
      exact follows_begin hbegin
  | hooked run answer progress events hcell hreceive =>
      rw [hcell] at hphase
      obtain ⟨hfollows, hpool, hgate⟩ := hphase
      exact h.hooks_before settings.graphName hpool hgate
        (follows_receive hfollows hreceive)
  | opened hcell =>
      rw [hcell] at hphase
      obtain ⟨hexecuted, hpool, -⟩ := hphase
      have hopened := Proceedings.of_pool .poolOpened rfl s.history
      have hnext : (s.beginRun settings).proceedings =
          { s.proceedings with pool := [.opening, .opened] } := by
        refine hopened.trans ?_
        rw [← proceedings, hpool]
        rfl
      exact h.of_start hnext ⟨hexecuted, List.prefix_rfl, rfl⟩ rfl (.inr (.inr ⟨rfl, rfl⟩))
  | unopened error hcell =>
      rw [hcell] at hphase
      obtain ⟨hexecuted, hpool, hgate⟩ := hphase
      have hprefix : s.proceedings.pool <+: [.opening] := hpool ▸ List.prefix_rfl
      exact h.of_start rfl ⟨hexecuted.answered_all, hprefix, hgate⟩ rfl (.inl ⟨rfl, rfl⟩)

/-- What stopping does leaves starting where it is, and concerns the pool only by closing it, when
it looks whether it is open. -/
theorem Conducted.of_stop (h : s.Conducted settings) {after : List HookEvent}
    {pool : List PoolEvent} (hnext : next.proceedings = { s.proceedings with after, pool })
    (hstarted : next.started = s.started) (hstart : next.startCell = s.startCell)
    (hlate : isLate next.stopCell = false → after = [])
    (hpool : pool = s.proceedings.pool ∧ next.poolOpened = s.poolOpened ∧
        (hasLooked next.stopCell = false → hasLooked s.stopCell = false) ∨
      s.poolOpened = true ∧ pool = s.proceedings.pool ++ [.closing] ∧ next.poolOpened = false ∧
        hasLooked next.stopCell = true) :
    next.Conducted settings := by
  constructor
  · rw [hnext, hstarted, hstart]
    refine h.start.after rfl ?_
    rcases hpool with ⟨hsame, -⟩ | ⟨hopened, hclosing, -⟩
    · exact .inl hsame
    · have hflag := h.flag.mp hopened
      exact .inr ⟨by rw [hflag]; decide, hclosing⟩
  · rw [hnext]
    rcases hpool with ⟨rfl, -⟩ | ⟨hopened, rfl, -⟩
    · exact h.pool
    · show s.proceedings.pool ++ [.closing] <+: _
      rw [h.flag.mp hopened]
      exact List.prefix_rfl
  · rw [hnext]
    rcases hpool with ⟨rfl, hflag, -⟩ | ⟨hopened, rfl, hflag, -⟩
    · rw [hflag]
      exact h.flag
    · show _ ↔ s.proceedings.pool ++ [.closing] = _
      rw [hflag, h.flag.mp hopened]
      decide
  · intro hearly
    rw [hnext]
    exact hlate hearly
  · intro hlooked
    rw [hnext]
    rcases hpool with ⟨rfl, -, hbefore⟩ | ⟨-, -, -, hclosed⟩
    · exact h.unclosed (hbefore hlooked)
    · rw [hclosed] at hlooked
      cases hlooked

/-- The hooks after the import are conducted, and the pool is closed after them if it is open. -/
theorem Conducted.hooks_after (h : s.Conducted settings) (graph : String)
    (progress : HookProgress) (events : List HookEvent) (hlooked : hasLooked s.stopCell = false) :
    ((s.recordHooks .after events).afterStopHooks graph progress).Conducted settings := by
  have hnext := s.proceedings_stop_hooks graph progress events
  obtain ⟨hstarted, hstart, hlate, hlooks, hflag, -⟩ :=
    (s.recordHooks .after events).control_stop_hooks graph progress
  refine h.of_stop hnext hstarted hstart (fun hearly => absurd hearly (by simp [hlate])) ?_
  cases hended : progress.isEnded with
  | false =>
      rw [hended] at hflag
      refine .inl ⟨List.append_nil _, ?_, fun _ => hlooked⟩
      rw [hflag]
      exact Bool.and_true _
  | true =>
      rw [hended] at hlooks hflag
      cases hopened : s.poolOpened with
      | false =>
          refine .inl ⟨List.append_nil _, ?_, fun hearly => absurd hearly (by simp [hlooks])⟩
          rw [hflag]
          exact Bool.and_false _
      | true => exact .inr ⟨rfl, rfl, hflag.trans (Bool.and_false _), hlooks⟩

/-- Stopping is conducted. -/
theorem Conducted.stop_step (h : s.Conducted settings) {answer : Answer}
    (hstep : StopStep settings s answer next) : next.Conducted settings := by
  cases hstep with
  | begun hcell =>
      exact h.same rfl rfl rfl (.inl rfl) (fun _ => by rw [hcell]; rfl) fun _ => by rw [hcell]; rfl
  | readersDrained since hcell =>
      exact h.same rfl rfl rfl (.inl rfl) (fun _ => by rw [hcell]; rfl) fun _ => by rw [hcell]; rfl
  | importersDrained since hcell =>
      exact h.same rfl rfl rfl (.inl rfl) nofun fun _ => by rw [hcell]; rfl
  | collected _ _ _ _ _ _ lines hcell | joining _ lines hcell =>
      exact h.same (Proceedings.of_report lines s.history) rfl rfl (.inl rfl) nofun
        fun _ => by rw [hcell]; rfl
  | unhooked lines hcell =>
      have hlooked : hasLooked s.stopCell = false := by
        rcases hcell with ⟨failed, hcell, -⟩ | ⟨hcell, -⟩ <;> rw [hcell] <;> rfl
      have hreport : (s.report lines).Conducted settings :=
        h.same (Proceedings.of_report lines s.history) rfl rfl (.inl rfl) id id
      exact hreport.hooks_after settings.graphName _ _ hlooked
  | hooked run answer progress events hcell hreceive =>
      exact h.hooks_after settings.graphName progress events (by rw [hcell]; rfl)
  | closed result outcome hcell =>
      cases outcome with
      | ok | error => exact h.same rfl rfl rfl (.inl rfl) nofun nofun

/-- Calling for a body is conducted. -/
theorem Conducted.enter (h : s.Conducted settings) {wish : Wish}
    (heffect : EnterEffect s next wish) : next.Conducted settings := by
  refine h.same heffect.proceedings heffect.started heffect.poolOpened heffect.startCell ?_ ?_
  · intro hlate
    rcases heffect.stopCell with hstop | ⟨-, hidle, -⟩
    · exact hstop ▸ hlate
    · rw [hidle]
      rfl
  · intro hlooked
    rcases heffect.stopCell with hstop | ⟨-, hidle, -⟩
    · exact hstop ▸ hlooked
    · rw [hidle]
      rfl

/-- The proceedings bear on a run that has not begun. -/
theorem conducted_initial (settings : Settings) :
    (State.initial settings).Conducted settings where
  start := ⟨rfl, rfl, rfl⟩
  pool := List.nil_prefix
  flag := ⟨nofun, nofun⟩
  silent _ := rfl
  unclosed _ := List.not_mem_nil

/-- Every transition is conducted. -/
theorem Conducted.transition {label : Label} (h : s.Conducted settings)
    (hstep : Transition settings s label next) : next.Conducted settings := by
  cases conduct_step_of_transition hstep with
  | same hsame =>
      exact h.same hsame.proceedings hsame.started hsame.poolOpened (.inl hsame.startCell)
        (hsame.stopCell ▸ id) (hsame.stopCell ▸ id)
  | start answer hstep => exact h.start_step hstep
  | stop answer hstep => exact h.stop_step hstep
  | enter wish heffect => exact h.enter heffect

/-- The proceedings bear on every state that a run can get to. -/
theorem conducted_of_reachable (h : Reachable settings s) : s.Conducted settings := by
  induction h with
  | initial => exact conducted_initial settings
  | step label _ hstep ih => exact ih.transition (transition_of_step hstep)

end State

end

end BulkLoad.Manager
