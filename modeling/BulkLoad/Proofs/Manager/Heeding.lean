import BulkLoad.Proofs.Manager.Teardown
import BulkLoad.Proofs.Manager.Workers

/-!
# What stopping waits for is there

Stopping waits for both pools to be empty, for its jobs to end, and for the progress reports. None
of these waits is in vain: a pool that is waited for is watched, a job whose end is awaited has been
registered, and reports that are waited for have begun (`heeded_of_reachable`).
-/

namespace BulkLoad.Manager

/-- A call that stops the run has not begun, waits for the result, or has returned. -/
def Call.IsPlain (c : Call) : Prop :=
  c.wish = .stop → c.point = .begun ∨ c.point = .awaiting ∨ c.point.isReturned = true

/-- What stopping and those who call for it wait for will be noted when it happens. -/
structure State.Heeded (settings : Settings) (s : State) : Prop where
  readers : 1 < stopStage s.stopCell → s.readers.isWatched = true
  importers : 2 < stopStage s.stopCell → s.importers.isWatched = true
  awaited : ∀ n ∈ s.awaited, s.IsRegistered n
  interval : s.reporter ≠ none → settings.statsInterval ≠ none
  joining : s.stopCell = .running .joining → s.reporter ≠ none
  calls : ∀ c ∈ s.calls, c.IsPlain

section

variable {settings : Settings} {s next : State} {n : Nat} {j : Job} {label : Label}
  {answer : Answer}

/-! ## Pools that are watched -/

/-- A job leaves the pools watched. -/
theorem WorkerEffect.watched {after : Job} (h : WorkerEffect s next n j after) :
    next.readers.isWatched = s.readers.isWatched ∧
      next.importers.isWatched = s.importers.isWatched := by
  cases h with
  | stays _ _ hreaders himporters | enters _ _ _ hreaders himporters
  | asks _ _ _ hreaders himporters | granted _ _ _ _ hreaders himporters
  | holds _ _ _ hreaders himporters | hands _ _ hreaders _ _ himporters
  | withdraws _ _ hreaders himporters =>
      rw [hreaders, himporters]
      exact ⟨rfl, rfl⟩
  | leaves _ _ _ hreaders himporters =>
      rw [hreaders, himporters]
      exact ⟨WorkerPool.finish_is_watched _ _, rfl⟩

/-- Starting, stopping and calls leave the pools watched. -/
theorem WatchEffect.watched (h : WatchEffect s next) :
    (s.readers.isWatched = true → next.readers.isWatched = true) ∧
      (s.importers.isWatched = true → next.importers.isWatched = true) := by
  cases h with
  | same _ hreaders himporters =>
      rw [hreaders, himporters]
      exact ⟨id, id⟩
  | readers _ hreaders himporters =>
      rw [hreaders, himporters]
      exact ⟨fun _ => WorkerPool.watch_is_watched _, id⟩
  | importers _ hreaders himporters =>
      rw [hreaders, himporters]
      exact ⟨id, fun _ => WorkerPool.watch_is_watched _⟩
  | both _ hreaders himporters =>
      rw [hreaders, himporters]
      exact ⟨fun _ => WorkerPool.watch_is_watched _, fun _ => WorkerPool.watch_is_watched _⟩

/-- A pool that is watched stays so. -/
theorem watched_of_transition (h : Transition settings s label next) :
    (s.readers.isWatched = true → next.readers.isWatched = true) ∧
      (s.importers.isWatched = true → next.importers.isWatched = true) := by
  cases h with
  | «import» | call | clock => exact ⟨id, id⟩
  | job n j answer _ hj hstep =>
      obtain ⟨change, -, heffect⟩ := hstep.worker_effect
      obtain ⟨hreaders, himporters⟩ := heffect.watched
      exact ⟨hreaders.trans, himporters.trans⟩
  | task n t answer _ ht hstep =>
      have heffect := hstep.effect.2
      rw [heffect.readers]
      rcases heffect.tasks with ⟨-, himporters⟩ | ⟨-, himporters⟩
      · rw [himporters]
        exact ⟨id, id⟩
      · rw [himporters, WorkerPool.finish_is_watched]
        exact ⟨id, id⟩
  | start answer _ hstep => exact hstep.watch_effect.watched
  | stop answer _ hstep => exact hstep.watch_effect.watched
  | report answer _ hstep => cases hstep <;> exact ⟨id, id⟩
  | caller n c _ hc hstep => exact hstep.watch_effect.watched

/-! ## Where stopping stands -/

/-- Stopping goes on, or begins, or stands where it stood. -/
theorem stage_of_transition (h : Transition settings s label next) :
    next.stopCell = s.stopCell ∨ s.stopCell = .idle ∧ next.stopCell = .running .begun ∨
      ∃ answer, StopStep settings s answer next := by
  cases conduct_step_of_transition h with
  | same hsame => exact .inl hsame.stopCell
  | start answer hstep => exact .inl hstep.effect.stopCell
  | stop answer hstep => exact .inr (.inr ⟨answer, hstep⟩)
  | enter wish heffect =>
      rcases heffect.stopCell with hsame | ⟨-, hidle, hbegun⟩
      · exact .inl hsame
      · exact .inr (.inl ⟨hidle, hbegun⟩)

/-- A step of stopping after which it waits for the readers, or has waited for them, leaves them
watched. -/
theorem State.Heeded.watched_of_stop (h : s.Heeded settings)
    (hstep : StopStep settings s answer next) :
    next.readers.isWatched = true ∧ (2 < stopStage next.stopCell →
      next.importers.isWatched = true) := by
  have hkept := hstep.watch_effect.watched
  have hlate (hstage : 2 < stopStage s.stopCell) : next.readers.isWatched = true ∧
      (2 < stopStage next.stopCell → next.importers.isWatched = true) :=
    ⟨hkept.1 (h.readers (by omega)), fun _ => hkept.2 (h.importers hstage)⟩
  cases hstep with
  | begun hcell =>
      refine ⟨WorkerPool.watch_is_watched _, fun hstage => ?_⟩
      have hstage : 2 < 2 := hstage
      omega
  | readersDrained since hcell =>
      refine ⟨hkept.1 (h.readers ?_), fun _ => WorkerPool.watch_is_watched _⟩
      simp [hcell, stopStage]
  | importersDrained _ hcell | collected _ _ _ _ _ _ _ hcell | joining _ _ hcell
  | hooked _ _ _ _ hcell | closed _ _ hcell =>
      exact hlate (by simp [hcell, stopStage])
  | unhooked _ hcell =>
      refine hlate ?_
      rcases hcell with ⟨failed, hcell, -⟩ | ⟨hcell, -⟩ <;> simp [hcell, stopStage]

/-! ## Jobs that are awaited -/

/-- A registered job stays registered. -/
theorem registered_of_step (hstep : step settings s label = some next) (h : s.IsRegistered n) :
    next.IsRegistered n := by
  obtain ⟨j, hj, hregistered⟩ := h
  obtain ⟨after, hafter, rfl | hmove⟩ := job_of_step hstep hj
  · exact ⟨_, hafter, hregistered⟩
  · exact ⟨after, hafter, hmove.registered hregistered⟩

/-- A job is awaited when it is registered, and not before. -/
theorem JobStep.awaited (h : JobStep settings s n j answer next) (hj : s.jobs[n]? = some j)
    {k : Nat} (hk : k ∈ next.awaited) : k ∈ s.awaited ∨ next.IsRegistered k := by
  have hcell := h.same_control.stopCell
  obtain ⟨-, change, hjobs, heffect⟩ := h.await_effect
  have hsame (huncollected : next.uncollected = s.uncollected) : k ∈ s.awaited := by
    rwa [State.awaited, hcell, huncollected] at hk
  cases heffect with
  | pends _ huncollected | works _ _ huncollected => exact .inl (hsame huncollected)
  | enters hafter _ huncollected =>
      by_cases hkn : k = n
      · subst hkn
        exact .inr ⟨change j, hjobs ▸ modified_at change hj, hafter⟩
      · refine .inl ?_
        rw [State.awaited, hcell, huncollected] at hk
        rw [State.awaited]
        split at hk <;> simp_all

/-- A step of stopping makes no job awaited. -/
theorem StopStep.awaited (h : StopStep settings s answer next) {k : Nat} (hk : k ∈ next.awaited) :
    k ∈ s.awaited := by
  have hhooks (base : State) (progress : HookProgress)
      (hk : k ∈ (base.afterStopHooks settings.graphName progress).awaited) : k ∈ s.awaited := by
    rw [awaited_stop_hooks] at hk
    cases hk
  cases h with
  | begun hcell | readersDrained _ hcell | importersDrained _ hcell =>
      rw [State.awaited, hcell]
      exact hk
  | collected m rest _ _ _ _ _ hcell =>
      rw [State.awaited, hcell]
      exact List.mem_cons_of_mem m hk
  | joining => cases hk
  | unhooked | hooked => exact hhooks _ _ hk
  | closed _ outcome => cases outcome <;> cases hk

/-- What is awaited after a step was awaited before it, or is a registered job. -/
theorem awaited_of_transition (h : Transition settings s label next) {k : Nat}
    (hk : k ∈ next.awaited) : k ∈ s.awaited ∨ next.IsRegistered k := by
  have hsame (hcell : next.stopCell = s.stopCell)
      (huncollected : next.uncollected = s.uncollected) : k ∈ s.awaited := by
    rwa [State.awaited, hcell, huncollected] at hk
  cases h with
  | «import» | call | clock => exact .inl hk
  | job m j answer _ hj hstep => exact hstep.awaited hj hk
  | task m t answer _ ht hstep => exact .inl (hsame hstep.effect.1.stopCell hstep.uncollected)
  | start answer _ hstep => exact .inl (hsame hstep.effect.stopCell hstep.uncollected.2)
  | stop answer _ hstep => exact .inl (hstep.awaited hk)
  | report answer _ hstep =>
      cases hstep with
      | ticked | ended => exact .inl hk
  | caller m c _ hc hstep =>
      cases hstep with
      | waiting | readersDrained | answered => exact .inl hk
      | entered | importersDrained =>
          have huncollected : (s.enter m c.wish).uncollected = s.uncollected := by
            simp only [State.enter]
            split <;> rfl
          rcases (enter_effect s m c.wish).stopCell with hcell | ⟨-, hidle, hbegun⟩
          · exact .inl (hsame hcell huncollected)
          · rw [State.awaited, hbegun, huncollected] at hk
            rw [State.awaited, hidle]
            exact .inl hk

/-! ## Progress reports -/

/-- Going on leaves the progress reports alone. -/
theorem GoesOn.reporter {importers : List Importer} (h : GoesOn s n j importers next) :
    next.reporter = s.reporter := by
  cases h with
  | readying | reading | stopping => rfl

/-- A job leaves the progress reports alone. -/
theorem JobStep.reporter (h : JobStep settings s n j answer next) :
    next.reporter = s.reporter := by
  cases h with
  | skipped | refused | opening | opened | unopened | registered | unregistered | unsized
  | dismissed | enqueued | granted | cancelled | readBatch | drained | failed | lost | ended => rfl
  | released _ _ _ hnext | ready _ _ _ _ hnext | readNothing _ _ _ hnext
  | submitted _ _ _ _ _ hnext | rejected _ _ _ _ _ hnext => exact hnext.reporter

/-- A task leaves the progress reports alone. -/
theorem TaskStep.reporter {t : Task} (h : TaskStep settings s n t answer next) :
    next.reporter = s.reporter := by
  cases h with
  | settled | sent | rested | resent => rfl
  | planned _ _ _ _ _ _ hnext | concluded _ _ _ _ _ _ hnext
  | crashed _ _ _ _ hnext =>
      cases hnext with
      | imported | panicked | overflowed => rfl

/-- Stopping leaves the progress reports alone. -/
theorem StopStep.reporter (h : StopStep settings s answer next) : next.reporter = s.reporter := by
  have hhooks (base : State) (hbase : base.reporter = s.reporter) (progress : HookProgress) :
      (base.afterStopHooks settings.graphName progress).reporter = s.reporter := by
    have hhooked := base.stop_hooked settings.graphName progress
    generalize base.afterStopHooks settings.graphName progress = next at hhooked ⊢
    cases hhooked with
    | running | closing | done => exact hbase
  cases h with
  | begun | readersDrained | importersDrained | collected | joining => rfl
  | unhooked lines =>
      exact hhooks ((s.report lines).recordHooks .after _) rfl _
  | hooked run answer progress events => exact hhooks (s.recordHooks .after events) rfl _
  | closed result outcome => cases outcome <;> rfl

/-- Progress reports that have begun do not vanish, and they begin only if there is an interval. -/
theorem reporter_of_transition (h : Transition settings s label next) :
    next.reporter = s.reporter ∨ s.reporter ≠ none ∧ next.reporter ≠ none ∨
      (next.reporter ≠ none ↔ settings.statsInterval ≠ none) := by
  cases h with
  | «import» | call | clock => exact .inl rfl
  | job n j answer _ hj hstep => exact .inl hstep.reporter
  | task n t answer _ ht hstep => exact .inl hstep.reporter
  | start answer _ hstep =>
      cases hstep with
      | stopped | unopened => exact .inl rfl
      | opened =>
          refine .inr (.inr ?_)
          show settings.statsInterval.map _ ≠ none ↔ _
          simp
      | begun progress | hooked _ _ progress =>
          refine .inl ?_
          match progress with
          | .running _ => rfl
          | .ended (.ok ()) => rfl
          | .ended (.error _) => rfl
  | stop answer _ hstep => exact .inl hstep.reporter
  | report answer _ hstep =>
      cases hstep with
      | ticked _ hreporter =>
          refine .inr (.inl ⟨?_, nofun⟩)
          rcases hreporter with hreporter | hreporter <;> rw [hreporter] <;> nofun
      | ended hreporter =>
          refine .inr (.inl ⟨?_, nofun⟩)
          rw [hreporter]
          nofun
  | caller n c _ hc hstep =>
      refine .inl ?_
      cases hstep with
      | waiting | readersDrained | answered => rfl
      | entered | importersDrained =>
          simp only [State.enter]
          split <;> rfl

/-- Stopping waits for progress reports only if there are any. -/
theorem StopStep.joins (h : StopStep settings s answer next)
    (hjoining : next.stopCell = .running .joining) : next.reporter ≠ none := by
  have hhooks (base : State) (graph : String) (progress : HookProgress)
      (hcell : (base.afterStopHooks graph progress).stopCell = .running .joining) : False := by
    have hlate := stage_stop_hooks base graph progress
    rw [hcell] at hlate
    simp [stopStage] at hlate
  cases h with
  | begun | readersDrained | importersDrained | collected => cases hjoining
  | joining _ _ _ hreports => exact hreports
  | unhooked | hooked => exact (hhooks _ _ _ hjoining).elim
  | closed _ outcome => cases outcome <;> cases hjoining

/-! ## Calls -/

/-- A call that goes on stays so. -/
theorem plain_of_transition (h : Transition settings s label next)
    (hplain : ∀ c ∈ s.calls, c.IsPlain) : ∀ c ∈ next.calls, c.IsPlain := by
  rcases calls_of_transition h with hsame | ⟨wish, -, hjoined⟩ | ⟨k, d, hd, hcall⟩
  · rwa [hsame]
  · rw [hjoined]
    intro c hc
    rcases List.mem_append.mp hc with hc | hc
    · exact hplain c hc
    · rw [List.mem_singleton.mp hc]
      exact fun _ => .inl rfl
  · have hmoved {point : CallPoint} (hcalls : next.calls = (s.moveCall k point).calls)
        (hpoint : d.wish = .stop → point = .awaiting ∨ point.isReturned = true) :
        ∀ c ∈ next.calls, c.IsPlain := by
      intro c hc
      rcases mem_of_moved hd (hcalls ▸ hc) with rfl | hc
      · exact fun hwish => .inr (hpoint hwish)
      · exact hplain c hc
    have hbefore := hplain d (List.mem_of_getElem? hd)
    cases hcall with
    | waiting _ hwish =>
        refine hmoved rfl fun hstop => ?_
        rw [hwish] at hstop
        cases hstop
    | readersDrained since hpoint =>
        refine hmoved rfl fun hstop => ?_
        rcases hbefore hstop with h | h | h <;> rw [hpoint] at h <;> cases h
    | entered | importersDrained => exact hmoved (calls_enter s k d.wish) fun _ => .inl rfl
    | answered => exact hmoved rfl fun _ => .inr rfl

/-! ## Every state -/

/-- Every step keeps what is waited for noted. -/
theorem State.Heeded.step (h : s.Heeded settings) (hstep : step settings s label = some next) :
    next.Heeded settings := by
  have htransition := transition_of_step hstep
  obtain ⟨hreaders, himporters⟩ := watched_of_transition htransition
  have hwatched : (1 < stopStage next.stopCell → next.readers.isWatched = true) ∧
      (2 < stopStage next.stopCell → next.importers.isWatched = true) := by
    rcases stage_of_transition htransition with hcell | ⟨-, hbegun⟩ | ⟨answer, hstop⟩
    · rw [hcell]
      exact ⟨fun hstage => hreaders (h.readers hstage),
        fun hstage => himporters (h.importers hstage)⟩
    · rw [hbegun]
      exact ⟨fun hstage => absurd hstage (Nat.lt_irrefl 1), fun hstage => by
        simp [stopStage] at hstage⟩
    · exact ⟨fun _ => (h.watched_of_stop hstop).1, (h.watched_of_stop hstop).2⟩
  have hreporter (hbefore : s.reporter ≠ none) : next.reporter ≠ none := by
    rcases reporter_of_transition htransition with hsame | ⟨-, hafter⟩ | hinterval
    · exact hsame ▸ hbefore
    · exact hafter
    · exact hinterval.mpr (h.interval hbefore)
  refine ⟨hwatched.1, hwatched.2, ?_, ?_, ?_, plain_of_transition htransition h.calls⟩
  · intro k hk
    rcases awaited_of_transition htransition hk with hbefore | hregistered
    · exact registered_of_step hstep (h.awaited k hbefore)
    · exact hregistered
  · intro hafter
    rcases reporter_of_transition htransition with hsame | ⟨hbefore, -⟩ | hinterval
    · exact h.interval (hsame ▸ hafter)
    · exact h.interval hbefore
    · exact hinterval.mp hafter
  · intro hjoining
    rcases stage_of_transition htransition with hcell | ⟨-, hbegun⟩ | ⟨answer, hstop⟩
    · exact hreporter (h.joining (hcell ▸ hjoining))
    · rw [hbegun] at hjoining
      cases hjoining
    · exact hstop.joins hjoining

/-- In every reachable state what is waited for will be noted when it happens. -/
theorem heeded_of_reachable (h : Reachable settings s) : s.Heeded settings := by
  induction h with
  | initial => exact ⟨nofun, nofun, nofun, fun h => absurd rfl h, nofun, nofun⟩
  | step label _ hstep ih => exact ih.step hstep

end

end BulkLoad.Manager
