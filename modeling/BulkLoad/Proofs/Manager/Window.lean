import BulkLoad.Proofs.Manager.ClientPool
import BulkLoad.Proofs.Manager.Work

/-!
# Statements are sent while the client pool is open

Jobs may be registered at any time, wait for a reader and for the gate in any order, and hand their
batches to tasks that outlive them. Still every statement of an import is sent inside one window:
the hooks before the import have succeeded and the pool is open, and no hook after the import has
run nor has the pool been asked to close (`window_of_reachable`). Two facts make the window. A task
exists only if the gate has been opened, which is the last thing that starting does; and stopping
goes on to the hooks only when it has found both worker pools empty.
-/

namespace BulkLoad.Manager

/-- The window in which statements of an import may be sent: the hooks before the import have
succeeded and the pool has opened, and neither have the hooks after the import begun nor has the
pool been asked to close. -/
structure InWindow (hooks : List Hook) (p : Proceedings) : Prop where
  executed : Executed (hooks.flatMap Hook.sent) p.before []
  opened : .opened ∈ p.pool
  silent : p.after = []
  unclosed : .closing ∉ p.pool

section

variable {settings : Settings} {s next : State} {n : Nat} {labels : List Label}

/-- Stopping looks for the client pool only after it has found both worker pools empty. -/
theorem not_looked_of_early {cell : Cell StopPoint} (h : isLate cell = false) :
    hasLooked cell = false := by
  unfold isLate at h
  split at h
  · rfl
  · rfl
  · rfl
  · rfl
  all_goals cases h

/-- While there is a task the window is open. -/
theorem in_window_of_task (h : Reachable settings s) (htasks : s.tasks ≠ []) :
    InWindow settings.hooks.before s.proceedings := by
  have hconducted := State.conducted_of_reachable h
  -- The gate has been opened, or there would be no task.
  have hgate : s.started.released = true := by
    rw [← Bool.not_eq_false]
    exact fun hclosed => htasks (unworked_of_reachable h hclosed).tasks
  have hstarted := hconducted.start.released_iff.mp hgate
  -- Stopping has not found both worker pools empty, as there is a task.
  have hearly : isLate s.stopCell = false := by
    rw [← Bool.not_eq_true]
    intro hlate
    have hphase := (State.drained_of_reachable h).phase
    rw [State.stop_phase_late hlate] at hphase
    exact htasks hphase.2.2
  exact ⟨(hconducted.start.executed hstarted).1, hconducted.start.opened_iff.mpr hstarted,
    hconducted.silent hearly, hconducted.unclosed (not_looked_of_early hearly)⟩

/-- What was not added to a history was in it, with the same past. -/
theorem split_of_grown {α : Type} {events history later earlier : List α} {event : α}
    (hsplit : events ++ history = later ++ event :: earlier) (hnew : event ∉ events) :
    ∃ later, history = later ++ event :: earlier := by
  rcases List.append_eq_append_iff.mp hsplit with ⟨rest, -, hhistory⟩ | ⟨rest, hevents, htail⟩
  · exact ⟨rest, hhistory⟩
  · cases rest with
    | nil => exact ⟨[], htail.symm⟩
    | cons head rest =>
        obtain ⟨rfl, -⟩ := List.cons.inj htail
        refine absurd ?_ hnew
        rw [hevents]
        exact List.mem_append_right _ List.mem_cons_self

/-- What a step sends, it sends inside the window. -/
theorem sending_of_step {label : Label} (h : Reachable settings s)
    (hstep : step settings s label = some next) :
    (∃ events, next.history = events ++ s.history ∧
      ∀ task statement, .sending task statement ∉ events) ∨
      InWindow settings.hooks.before s.proceedings ∧
        ∃ event, next.history = event :: s.history := by
  have hquiet {next : State} (hidle : AddsNoWork s next) :
      ∃ events, next.history = events ++ s.history ∧
        ∀ task statement, .sending task statement ∉ events := by
    obtain ⟨events, hevents, hnone⟩ := hidle
    refine ⟨events, hevents, ?_⟩
    intro task statement hsending
    cases hnone _ hsending
  cases work_step_of_transition (transition_of_step hstep) with
  | «import» => exact .inl ⟨[], rfl, fun _ _ => List.not_mem_nil⟩
  | job n j answer _ hj hstep =>
      obtain ⟨events, hevents, hwork⟩ := hstep.work.history
      refine .inl ⟨events, hevents, ?_⟩
      intro task statement hsending
      cases (hwork _ hsending rfl).1
  | task n t answer _ ht hstep =>
      rcases hstep.work with ⟨statement, hhistory⟩ | hidle
      · refine .inr ⟨in_window_of_task h ?_, _, hhistory⟩
        intro hnone
        rw [hnone] at ht
        cases ht
      · exact .inl (hquiet hidle)
  | idle _ _ _ _ _ hidle => exact .inl (hquiet hidle)

/-- Whatever has been sent was sent inside the window. -/
theorem in_window_of_sending (h : Reachable settings s) {later earlier : List Event} {task : Nat}
    {statement : String} (hsplit : s.history = later ++ .sending task statement :: earlier) :
    InWindow settings.hooks.before (Proceedings.of earlier) := by
  induction h generalizing later with
  | initial => cases later <;> cases hsplit
  | @step s next label h hstep ih =>
      rcases sending_of_step h hstep with ⟨events, hevents, hnone⟩ | ⟨hwindow, event, hevent⟩
      · rw [hevents] at hsplit
        obtain ⟨later, hbefore⟩ := split_of_grown hsplit (hnone task statement)
        exact ih hbefore
      · rw [hevent] at hsplit
        cases later with
        | nil =>
            obtain ⟨-, rfl⟩ := List.cons.inj hsplit
            exact hwindow
        | cons other later => exact ih (List.cons.inj hsplit).2

/-- If starting fails, no job ever asks for a batch and no statement of an import is ever sent. -/
theorem unworked_of_failed_start (h : Reachable settings s) {error : ManagerError}
    (hfailed : s.startCell = .done (.error error)) (hrun : run settings s labels = some next) :
    next.Unworked := by
  have hreachable := reachable_of_run h hrun
  have hstill := started_settled hfailed hrun
  apply unworked_of_reachable hreachable
  rw [← Bool.not_eq_true, (State.conducted_of_reachable hreachable).start.released_iff, hstill]
  nofun

/-- Every statement of an import is sent after the hooks before the import have succeeded and the
client pool has opened, before a hook after the import says anything and before the pool is asked to
close. If starting fails, no job ever asks for a batch and no statement of an import is ever sent.
-/
theorem window_of_reachable (h : Reachable settings s) :
    (∀ later task statement earlier, s.history = later ++ .sending task statement :: earlier →
      InWindow settings.hooks.before (Proceedings.of earlier)) ∧
    ∀ error, s.startCell = .done (.error error) → ∀ labels next,
      run settings s labels = some next → ∀ event ∈ next.history, event.isWork = false := by
  constructor
  · intro later task statement earlier hsplit
    exact in_window_of_sending h hsplit
  · intro error hfailed labels next hrun
    exact (unworked_of_failed_start h hfailed hrun).history

end

/-! ## A run with hooks -/

namespace Guarded

/-- A statement before the import and one after it. -/
def settings : Settings :=
  { statsInterval := none
    hooks := { before := [{ statements := ["PREPARE"] }], after := [{ statements := ["CLEAN"] }] } }

/-- A source is imported, and its job waits for the gate while the hook is running. The run is
stopped while the only batch is being imported. -/
def labels : List Label := [
  .import "people" [{ name := "single", build := fun _ => .statement "CREATE" 1 }],
  .answer (.job 0) .go, .answer (.job 0) (.source (.ok ())), .answer (.job 0) (.size (.ok 4)),
  .call .start, .answer (.caller 0) .go, .answer .starter .go, .answer (.job 0) .go,
  .answer (.job 0) .go, .answer .starter (.client (.ok ())), .answer .starter Sample.executed,
  .answer .starter (.client (.ok ())), .answer .starter (.client (.ok ())), .answer (.job 0) .go,
  .answer (.job 0) .ready, .answer (.job 0) (.batch (.batch 4 [["1"]])), .answer (.job 0) .go,
  .call .stop, .answer (.caller 1) .go, .answer .stopper .go,
  .answer (.job 0) (.batch (.error .eof)), .answer (.job 0) (.source (.ok ())),
  .answer .stopper .go, .answer (.task 0) .go, .answer (.task 0) Sample.executed,
  .answer (.task 0) .go, .answer .stopper .go, .answer .stopper .go, .answer .stopper .go,
  .answer .stopper (.client (.ok ())), .answer .stopper Sample.executed,
  .answer .stopper (.client (.ok ())), .answer .stopper (.client (.ok ())), .answer (.caller 1) .go]

/-- The state at the end. -/
def final : State := (run settings (.initial settings) labels).getD (.initial settings)

/-- The same, but there is no client for the hook before the import. -/
def refused : State :=
  (run settings (.initial settings)
    (labels.take 9 ++ [.answer .starter (.client (.error (.acquire "refused")))])).getD
      (.initial settings)

end Guarded

/-- A statement is sent inside the window between the two hooks, and none if there is no client for
the first of them. -/
theorem window_of_guarded :
    (∃ later task statement earlier,
      Guarded.final.history = later ++ .sending task statement :: earlier ∧
        InWindow Guarded.settings.hooks.before (Proceedings.of earlier) ∧
        sentIn (Proceedings.of earlier).before = ["PREPARE"]) ∧
      sentIn Guarded.final.proceedings.after = ["CLEAN"] ∧
      (∃ error, Guarded.refused.startCell = .done (.error error)) ∧
      ∀ labels next, run Guarded.settings Guarded.refused labels = some next →
        ∀ event ∈ next.history, event.isWork = false := by
  have hreachable : Reachable Guarded.settings Guarded.final := reachable_run _ _
  obtain ⟨hwindow, -⟩ := window_of_reachable hreachable
  have hrefused : Reachable Guarded.settings Guarded.refused := reachable_run _ _
  obtain ⟨-, hunworked⟩ := window_of_reachable hrefused
  refine ⟨?_, by decide +kernel, ⟨_, rfl⟩, hunworked _ rfl⟩
  have hsent : (Guarded.final.history.any fun event => event matches .sending _ _) = true := by
    decide +kernel
  obtain ⟨event, hevent, hsending⟩ := List.any_eq_true.mp hsent
  obtain ⟨later, earlier, hsplit⟩ := List.append_of_mem hevent
  cases event with
  | sending task statement =>
      have hin := hwindow later task statement earlier hsplit
      have hstatements := hin.executed.sent
      rw [List.append_nil] at hstatements
      have hall : Guarded.settings.hooks.before.flatMap Hook.sent = ["PREPARE"] := by
        decide +kernel
      exact ⟨later, task, statement, earlier, hsplit, hin, hstatements.trans hall⟩
  | _ => cases hsending

end BulkLoad.Manager
