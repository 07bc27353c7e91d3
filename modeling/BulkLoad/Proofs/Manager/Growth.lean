import BulkLoad.Proofs.Manager.Transition

/-!
# How the history grows

No step takes anything out of the history, and what it adds is its own: an event that tells of a job
or of a task is added only by an answer to that job or task (`adds_of_transition`). So whatever is
read off the events of one job is left alone by everyone else.
-/

namespace BulkLoad.Manager

/-- The job or the task of which an event tells, if it tells of one. A task does not yet exist when
the job hands a batch to it. -/
def Event.actor? : Event → Option Actor
  | .sourceOpening n | .sourceOpened n | .sourceClosing n | .registered n | .reading n | .read n _
  | .submitted n _ _ | .rejected n _ => some (.job n)
  | .sending k _ | .imported k _ _ | .settled k => some (.task k)
  | .hook _ _ | .poolOpening | .poolOpened | .poolClosing | .cancelled | .progress | .logged _ =>
      none

/-- Who gets an answer, if somebody does. -/
def Label.actor? : Label → Option Actor
  | .answer actor _ => some actor
  | .import _ _ | .call _ | .clock _ => none

/-- The history grows by events with a property. -/
def Adds (p : Event → Prop) (s next : State) : Prop :=
  ∃ events, next.history = events ++ s.history ∧ ∀ event ∈ events, p event

/-- An event that tells of an actor tells of this one. -/
def TellsOf (actor : Actor) (event : Event) : Prop :=
  ∀ other, event.actor? = some other → other = actor

section

variable {settings : Settings} {s middle next : State} {p q : Event → Prop} {n : Nat} {j : Job}
  {actor : Actor} {answer : Answer}

/-! ## Ways to grow -/

/-- A history that stays the same grows by nothing. -/
theorem Adds.of_same (h : next.history = s.history) : Adds p s next := ⟨[], h, nofun⟩

/-- A history may grow by one event. -/
theorem Adds.of_event (event : Event) (hevent : p event)
    (h : next.history = event :: s.history) : Adds p s next := by
  refine ⟨[event], h, ?_⟩
  intro other hother
  rw [List.mem_singleton.mp hother]
  exact hevent

/-- Growing twice is growing. -/
theorem Adds.trans (h : Adds p s middle) (hnext : Adds p middle next) : Adds p s next := by
  obtain ⟨events, hevents, hfirst⟩ := h
  obtain ⟨more, hmore, hsecond⟩ := hnext
  refine ⟨more ++ events, by rw [hmore, hevents, List.append_assoc], ?_⟩
  intro event hevent
  exact (List.mem_append.mp hevent).elim (hsecond event) (hfirst event)

/-- What is added has every property that follows from its own. -/
theorem Adds.mono (h : Adds p s next) (hpq : ∀ event, p event → q event) : Adds q s next := by
  obtain ⟨events, hevents, hadded⟩ := h
  exact ⟨events, hevents, fun event hevent => hpq event (hadded event hevent)⟩

/-- What the added events do not say is said as before. -/
theorem Adds.filter_map_eq {α : Type} {f : Event → Option α} (h : Adds p s next)
    (hnone : ∀ event, p event → f event = none) :
    next.history.filterMap f = s.history.filterMap f := by
  obtain ⟨events, hevents, hadded⟩ := h
  rw [hevents, List.filterMap_append, List.append_left_eq_self]
  exact List.filterMap_eq_nil_iff.mpr fun event hevent => hnone event (hadded event hevent)

/-- Reports leave what is read off a history alone if nothing is read off them. -/
theorem filter_map_report {α : Type} {f : Event → Option α} (hf : ∀ line, f (.logged line) = none)
    (lines : List LogLine) (history : List Event) :
    (lines.map Event.logged ++ history).filterMap f = history.filterMap f := by
  rw [List.filterMap_append, List.append_left_eq_self, List.filterMap_map]
  exact List.filterMap_eq_nil_iff.mpr fun line _ => hf line

/-- Reports tell of nobody. -/
theorem Adds.of_report (lines : List LogLine)
    (h : next.history = lines.map .logged ++ s.history) : Adds (TellsOf actor) s next := by
  refine ⟨_, h, ?_⟩
  intro event hevent
  obtain ⟨line, -, rfl⟩ := List.mem_map.mp hevent
  exact nofun

/-- Hooks tell of nobody. -/
theorem Adds.of_hooks {phase : HookPhase} {events : List HookEvent}
    (h : next.history = (events.map (Event.hook phase)).reverse ++ s.history) :
    Adds (TellsOf actor) s next := by
  refine ⟨_, h, ?_⟩
  intro event hevent
  obtain ⟨hook, -, rfl⟩ := List.mem_map.mp (List.mem_reverse.mp hevent)
  exact nofun

/-- An event of an actor tells of it. -/
theorem tells_of_own {event : Event} (h : event.actor? = some actor) : TellsOf actor event := by
  intro other hother
  exact Option.some.inj (hother.symm.trans h)

/-! ## Starting, stopping and calls -/

/-- Starting adds no event of a job or a task. -/
theorem StartStep.adds (h : StartStep settings s answer next) (actor : Actor) :
    Adds (TellsOf actor) s next := by
  cases h with
  | stopped | unopened => exact .of_same rfl
  | opened => exact .of_event .poolOpened nofun rfl
  | begun progress events | hooked _ _ progress events =>
      have hhooks : Adds (TellsOf actor) s (s.recordHooks .before events) := .of_hooks rfl
      match progress with
      | .running run => exact hhooks.trans (.of_same rfl)
      | .ended (.error error) => exact hhooks.trans (.of_event (.logged _) nofun rfl)
      | .ended (.ok ()) => exact hhooks.trans (.of_event .poolOpening nofun rfl)

/-- The hooks after the import add no event of a job or a task. -/
theorem adds_stop_hooks (s : State) (graph : String) (progress : HookProgress)
    (events : List HookEvent) (actor : Actor) :
    Adds (TellsOf actor) s ((s.recordHooks .after events).afterStopHooks graph progress) := by
  have hhooks : Adds (TellsOf actor) s (s.recordHooks .after events) := .of_hooks rfl
  have hreport (lines : List LogLine) :
      Adds (TellsOf actor) s ((s.recordHooks .after events).report lines) :=
    hhooks.trans (.of_report lines rfl)
  have hhooked := (s.recordHooks .after events).stop_hooked graph progress
  generalize (s.recordHooks .after events).afterStopHooks graph progress = next at hhooked ⊢
  cases hhooked with
  | running => exact hhooks.trans (.of_same rfl)
  | closing _ lines => exact (hreport lines).trans (.of_event .poolClosing nofun rfl)
  | done _ lines => exact (hreport lines).trans (.of_same rfl)

/-- Stopping adds no event of a job or a task. -/
theorem StopStep.adds (h : StopStep settings s answer next) (actor : Actor) :
    Adds (TellsOf actor) s next := by
  cases h with
  | begun => exact .of_event .cancelled nofun rfl
  | readersDrained | importersDrained => exact .of_same rfl
  | collected _ _ _ _ _ _ lines | joining _ lines => exact .of_report lines rfl
  | unhooked lines =>
      have hreport : Adds (TellsOf actor) s (s.report lines) := .of_report lines rfl
      exact hreport.trans (adds_stop_hooks _ _ _ _ actor)
  | hooked run answer progress events => exact adds_stop_hooks s _ progress events actor
  | closed result outcome =>
      cases outcome with
      | ok => exact .of_same rfl
      | error => exact .of_event (.logged _) nofun rfl

/-- The progress reports add no event of a job or a task. -/
theorem ReporterStep.adds (h : ReporterStep s answer next) (actor : Actor) :
    Adds (TellsOf actor) s next := by
  cases h with
  | ticked => exact .of_event .progress nofun rfl
  | ended => exact .of_same rfl

/-- A call adds nothing. -/
theorem CallStep.adds {c : Call} (h : CallStep s n c next) : Adds p s next := by
  cases h with
  | waiting | readersDrained | answered => exact .of_same rfl
  | entered | importersDrained =>
      refine .of_same ?_
      simp only [State.enter]
      split <;> rfl

/-! ## Jobs and tasks -/

/-- A job that goes on adds events of its own. -/
theorem GoesOn.adds {importers : List Importer} (h : GoesOn s n j importers next) :
    Adds (TellsOf (.job n)) s next := by
  cases h with
  | readying importer rest => exact .of_same rfl
  | reading hrun => exact .of_event (.reading n) (tells_of_own rfl) rfl
  | stopping hstop => exact .of_event (.sourceClosing n) (tells_of_own rfl) rfl

/-- A job adds events of its own. -/
theorem JobStep.adds (h : JobStep settings s n j answer next) :
    Adds (TellsOf (.job n)) s next := by
  have hown (event : Event) (hevent : event.actor? = some (.job n)) {next : State}
      (hnext : next.history = event :: s.history) : Adds (TellsOf (.job n)) s next :=
    .of_event event (tells_of_own hevent) hnext
  have hfailed (error : ReadError) {next : State}
      (hnext : Adds (TellsOf (.job n)) (s.record (.read n (.error error))) next) :
      Adds (TellsOf (.job n)) s next :=
    have hread : Adds (TellsOf (.job n)) s (s.record (.read n (.error error))) :=
      hown (.read n (.error error)) rfl rfl
    hread.trans hnext
  cases h with
  | skipped | refused | unopened | enqueued | granted => exact .of_same rfl
  | opening => exact hown (.sourceOpening n) rfl rfl
  | opened => exact hown (.sourceOpened n) rfl rfl
  | registered => exact hown (.registered n) rfl rfl
  | unregistered size lines =>
      have hreport : Adds (TellsOf (.job n)) s (s.report lines) := .of_report lines rfl
      exact hreport.trans (.of_event (.sourceClosing n) (tells_of_own rfl) rfl)
  | unsized | cancelled => exact hown (.sourceClosing n) rfl rfl
  | dismissed _ _ lines | ended _ _ lines => exact .of_report lines rfl
  | released _ _ _ hnext | ready _ _ _ _ hnext => exact hnext.adds
  | readNothing units _ _ hnext => exact (hown (.read n (.batch units [])) rfl rfl).trans hnext.adds
  | readBatch units records => exact hown (.read n (.batch units records)) rfl rfl
  | drained => exact hfailed .eof (.of_event (.sourceClosing n) (tells_of_own rfl) rfl)
  | failed error => exact hfailed error (.of_event (.sourceClosing n) (tells_of_own rfl) rfl)
  | lost message => exact hown (.read n (.panicked message)) rfl rfl
  | submitted batch _ _ _ _ hnext =>
      exact (hown (.submitted n s.nextTask batch) rfl rfl).trans hnext.adds
  | rejected batch lines _ _ _ hnext =>
      have hreport : Adds (TellsOf (.job n)) s (s.report lines) := .of_report lines rfl
      exact (hreport.trans (.of_event (.rejected n batch) (tells_of_own rfl) rfl)).trans
        hnext.adds

/-- The end of a portion is an event of its task. -/
theorem Concluded.adds {t : Task} {portion : Portion} {rest : List Portion}
    {outcome : ImportOutcome} (h : Concluded s n t portion rest outcome next) :
    Adds (TellsOf (.task n)) s next := by
  have himported : Adds (TellsOf (.task n)) s (s.record (.imported n portion outcome)) :=
    .of_event _ (tells_of_own rfl) rfl
  cases h with
  | imported lines => exact himported.trans (.of_report lines rfl)
  | panicked | overflowed => exact himported.trans (.of_same rfl)

/-- A task adds events of its own. -/
theorem TaskStep.adds {t : Task} (h : TaskStep settings s n t answer next) :
    Adds (TellsOf (.task n)) s next := by
  cases h with
  | settled => exact .of_event (.settled n) (tells_of_own rfl) rfl
  | sent portion rest statement => exact .of_event (.sending n statement) (tells_of_own rfl) rfl
  | resent => exact .of_event (.sending n _) (tells_of_own rfl) rfl
  | rested => exact .of_same rfl
  | planned _ _ _ _ _ _ hnext | concluded _ _ _ _ _ _ hnext
  | crashed _ _ _ _ hnext => exact hnext.adds

/-- An event that tells of an actor is added only by an answer to it. -/
theorem adds_of_transition {label : Label} (h : Transition settings s label next) :
    Adds (fun event => ∀ actor, event.actor? = some actor → label.actor? = some actor) s next := by
  have hown {actor : Actor} (hadds : Adds (TellsOf actor) s next) :
      Adds (fun event => ∀ other, event.actor? = some other → some actor = some other) s next :=
    hadds.mono fun event hevent other hother => congrArg some (hevent other hother).symm
  cases h with
  | «import» | call | clock => exact .of_same rfl
  | job n j answer _ hj hstep => exact hown hstep.adds
  | task n t answer _ ht hstep => exact hown hstep.adds
  | start answer _ hstep => exact hown (hstep.adds .starter)
  | stop answer _ hstep => exact hown (hstep.adds .stopper)
  | report answer _ hstep => exact hown (hstep.adds .reporter)
  | caller n c _ hc hstep => exact hstep.adds

/-- What is read off the events of one actor is left alone by everyone else. -/
theorem filter_map_of_transition {α : Type} {f : Event → Option α} {label : Label}
    (h : Transition settings s label next) (hlabel : label.actor? ≠ some actor)
    (hf : ∀ event, event.actor? ≠ some actor → f event = none) :
    next.history.filterMap f = s.history.filterMap f :=
  (adds_of_transition h).filter_map_eq fun event hevent =>
    hf event fun hactor => hlabel (hevent actor hactor)

end

end BulkLoad.Manager
