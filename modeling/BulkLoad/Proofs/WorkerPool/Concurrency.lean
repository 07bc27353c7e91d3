import BulkLoad.Proofs.WorkerPool.Moves

/-!
# How many tasks run at once

While a pool is open each task that runs holds one of its workers, so there are never more of them
than workers (`running_le_workers`). A closed pool lets every task that it has accepted run without
a worker, all at once if they like (`exists_all_running`). `running_of_run` says what follows for a
run of any moves: the number of workers bounds the running tasks for good exactly if the pool had no
more unfinished tasks than workers when it was closed.
-/

namespace BulkLoad.WorkerPool.System

/-- The number of tasks that have started and not finished. -/
def running (s : System) : Nat := s.tasks.countP Phase.isRunning

section

variable {s next final : System} {move : Move} {moves : List Move} {c : Nat} {name : String}

/-- Only accepted tasks run. -/
theorem running_le_tracked (h : s.Sound c) : s.running ≤ s.pool.tracked := by
  rw [h.tracked]
  refine List.countP_mono_left fun phase _ hrunning => ?_
  cases phase with
  | running => rfl
  | submitting | spawned | queued | assigned | finished | refused => cases hrunning

/-- While a pool is open, at most as many tasks run as it has workers. -/
theorem running_le_workers (h : s.Sound c) (hopen : s.pool.closed = false) :
    s.running ≤ max c 1 := by
  have hheld : s.running ≤ s.tasks.countP Phase.hasWorker := by
    refine List.countP_mono_left fun phase hphase hrunning => ?_
    cases phase with
    | running worker =>
        cases worker with
        | true => rfl
        | false => exact absurd hphase (h.manned hopen)
    | submitting | spawned | queued | assigned | finished | refused => cases hrunning
  have hworkers := h.workers
  omega

/-- An accepted task that does not run yet goes on when the pool is closed, and stays unfinished. -/
theorem exists_proceed_of_closed (h : s.Sound c) (hclosed : s.pool.closed = true) {k : Nat}
    {phase : Phase} (hk : s.tasks[k]? = some phase) (hunfinished : phase.isUnfinished = true)
    (hidle : phase.isRunning = false) :
    ∃ next, s.step (.proceed k) = some next ∧ next.pool.tracked = s.pool.tracked := by
  cases phase with
  | spawned | assigned =>
      simp only [step, proceed?, hk]
      exact ⟨_, rfl, rfl⟩
  | queued =>
      have hmem : k ∈ s.pool.queue := by
        rw [h.waiting, hk]
        rfl
      simp only [step, proceed?, hk, may_of_closed hclosed hmem, if_true]
      exact ⟨_, rfl, rfl⟩
  | running => cases hidle
  | submitting | finished | refused => cases hunfinished

/-- Once a pool is closed, all its unfinished tasks may run at the same time. -/
theorem exists_all_running {s : System} (h : s.Sound c) (hclosed : s.pool.closed = true) :
    ∃ moves final, s.run moves = some final ∧ final.running = s.pool.tracked := by
  by_cases hidle : ∃ (k : Nat) (phase : Phase), s.tasks[k]? = some phase ∧
      phase.isUnfinished = true ∧ phase.isRunning = false
  · obtain ⟨k, phase, hk, hunfinished, hrunning⟩ := hidle
    obtain ⟨next, hnext, htracked⟩ := exists_proceed_of_closed h hclosed hk hunfinished hrunning
    have hmoved := moved_of_step hnext
    have hless := remaining_lt hmoved rfl
    obtain ⟨moves, final, hrun, hall⟩ :=
      exists_all_running (sound_of_moved h hmoved) (closed_of_moved hmoved hclosed).1
    refine ⟨.proceed k :: moves, final, ?_, hall.trans htracked⟩
    rw [run_cons, hnext]
    exact hrun
  · refine ⟨[], s, rfl, ?_⟩
    rw [h.tracked]
    refine List.countP_congr fun phase hphase => ?_
    obtain ⟨k, hk⟩ := List.mem_iff_getElem?.mp hphase
    cases phase with
    | running => rfl
    | submitting | finished | refused => simp [Phase.isRunning, Phase.isUnfinished]
    | spawned | queued | assigned => exact absurd ⟨k, _, hk, rfl, rfl⟩ hidle
termination_by s.remaining

/-- Only closing closes a pool. -/
theorem close_of_moved (h : Moved s move next) (hopen : s.pool.closed = false)
    (hclosed : next.pool.closed = true) : move = .close ∧ next = s.close := by
  cases h with
  | closed => exact ⟨rfl, rfl⟩
  | unspawned hshut | refused _ _ hshut => cases hopen.symm.trans hshut
  | spawned | submitted | asked | assigned | granted | began | left =>
      cases hopen.symm.trans hclosed
  | finished k worker => cases hopen.symm.trans ((finish_closed _ worker).symm.trans hclosed)
  | waiting => cases hopen.symm.trans ((watch_closed _).symm.trans hclosed)

/-- A run in which the pool is closed closes it once while it is open. -/
theorem close_of_run (h : s.run moves = some final) (hopen : s.pool.closed = false)
    (hclosed : final.pool.closed = true) :
    ∃ earlier later before, moves = earlier ++ .close :: later ∧
      s.run earlier = some before ∧ before.pool.closed = false ∧
      before.close.run later = some final := by
  obtain ⟨earlier, move, later, before, after, rfl, hearlier, hstep, hlater, hbefore, hafter⟩ :=
    Steps.exists_step (p := fun s => s.pool.closed) hopen hclosed h
  obtain ⟨rfl, rfl⟩ := close_of_moved (moved_of_step hstep) hbefore hafter
  exact ⟨earlier, later, before, rfl, hearlier, hbefore, hlater⟩

/-- As long as the pool is open, at most as many tasks run as it has workers. If it has been closed,
the running tasks are among those that had not finished then, and the workers bound their number in
every continuation exactly if they were enough for all of these. -/
theorem running_of_run (h : (of name c).run moves = some final) :
    (final.pool.closed = false ∧ final.running ≤ max c 1) ∨
      ∃ earlier later s, moves = earlier ++ .close :: later ∧
        (of name c).run earlier = some s ∧ s.pool.closed = false ∧
        final.running ≤ s.pool.tracked ∧
        ((∀ others other, s.close.run others = some other → other.running ≤ max c 1) ↔
          s.pool.tracked ≤ max c 1) := by
  have hfinal := sound_of_start h
  cases hclosed : final.pool.closed with
  | false => exact .inl ⟨rfl, running_le_workers hfinal hclosed⟩
  | true =>
      obtain ⟨earlier, later, s, hmoves, hearlier, hopen, hlater⟩ := close_of_run h rfl hclosed
      have hshut : s.close.Sound c := sound_of_moved (sound_of_start hearlier) .closed
      have hbound : ∀ {others other}, s.close.run others = some other →
          other.running ≤ s.pool.tracked := by
        intro others other hothers
        have hle := (closed_of_run hothers (close_closed _)).2
        have htracked : s.close.pool.tracked = s.pool.tracked := close_tracked _
        exact Nat.le_trans (running_le_tracked (sound_of_run hothers hshut)) (htracked ▸ hle)
      refine .inr ⟨earlier, later, s, hmoves, hearlier, hopen, hbound hlater, ?_, ?_⟩
      · intro hall
        obtain ⟨others, other, hothers, hrunning⟩ := exists_all_running hshut (close_closed _)
        have htracked : s.close.pool.tracked = s.pool.tracked := close_tracked _
        exact htracked ▸ hrunning ▸ hall others other hothers
      · intro hle others other hothers
        exact Nat.le_trans (hbound hothers) hle

end

/-! ## More tasks than workers -/

namespace Overrun

/-- Two tasks are handed to a pool with one worker, which is closed while the first of them runs. -/
def moves : List Move :=
  [.spawn, .proceed 0, .proceed 0, .spawn, .proceed 1, .close, .proceed 1]

/-- The pool at the end. -/
def final : System := ((of "p" 1).run moves).getD (of "p" 1)

end Overrun

/-- A closed pool with one worker runs two tasks at the same time. -/
theorem running_over_workers :
    (of "p" 1).run Overrun.moves = some Overrun.final ∧ Overrun.final.running = 2 ∧
      max 1 1 < Overrun.final.running := by
  decide +kernel

/-- The second task had been accepted when the pool was closed, and there was no worker for it. -/
theorem running_of_overrun :
    ∃ earlier later s, Overrun.moves = earlier ++ .close :: later ∧
      (of "p" 1).run earlier = some s ∧ s.pool.closed = false ∧
      Overrun.final.running ≤ s.pool.tracked ∧
      ((∀ others other, s.close.run others = some other → other.running ≤ max 1 1) ↔
        s.pool.tracked ≤ max 1 1) := by
  have hrun : (of "p" 1).run Overrun.moves = some Overrun.final := by decide +kernel
  rcases running_of_run hrun with ⟨hopen, -⟩ | hclosed
  · have hshut : Overrun.final.pool.closed = true := by decide +kernel
    rw [hshut] at hopen
    cases hopen
  · exact hclosed

end BulkLoad.WorkerPool.System
