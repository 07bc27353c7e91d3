import BulkLoad.Proofs.WorkerPool.Moves

/-!
# What becomes of the tasks of a pool

An accepted task runs once, a refused one never, whatever else is done with the pool meanwhile. A
task that has been accepted stays accepted (`accepted_of_moved`), and the tasks go on until all that
were accepted have finished: each of their own moves leaves less to do (`length_le_remaining`), and
one is possible as long as one of them is unfinished. A call that waits for the pool to be empty
remembers how often it had been empty before. The pool cannot have been empty again before all tasks
that were accepted by then have finished, which is what `Waited` keeps along a run.
`bookkeeping_of_run` puts all of this together.
-/

namespace BulkLoad.WorkerPool

/-- The workers that nobody holds and that nobody has been promised. An open pool promises its free
workers to those who wait. -/
def available (p : WorkerPool) : Nat := if p.closed then p.free else p.free - p.queue.length

namespace System

section

variable {s next final : System} {move : Move} {moves : List Move} {c : Nat} {name : String}

/-- Whether a task has been accepted. -/
def isAccepted (s : System) (k : Nat) : Bool := (s.tasks[k]?).any Phase.isAccepted

/-- A task that has been accepted stays accepted. -/
theorem accepted_of_moved (h : Moved s move next) {k : Nat} (hk : s.isAccepted k = true) :
    next.isAccepted k = true := by
  obtain ⟨phase, hphase, haccepted⟩ := (Option.any_eq_true _ _).mp hk
  rcases phase_of_moved h hphase with hstays | ⟨after, hafter, hgoes⟩
  · exact (Option.any_eq_true _ _).mpr ⟨phase, hstays, haccepted⟩
  · exact (Option.any_eq_true _ _).mpr ⟨after, hafter, hgoes.accepted haccepted⟩

/-- A task that has been refused stays refused. -/
theorem refused_of_moved (h : Moved s move next) {k : Nat} (hk : s.tasks[k]? = some .refused) :
    next.tasks[k]? = some .refused := by
  rcases phase_of_moved h hk with hstays | ⟨after, -, hgoes⟩
  · exact hstays
  · exact absurd rfl hgoes.not_refused

/-- A task that has finished stays finished. -/
theorem finished_of_moved (h : Moved s move next) {k : Nat} (hk : s.tasks[k]? = some .finished) :
    next.tasks[k]? = some .finished := by
  rcases phase_of_moved h hk with hstays | ⟨after, -, hgoes⟩
  · exact hstays
  · cases hgoes

/-- Every task has started as often as its phase says. -/
theorem started_of_phase (h : s.Sound c) {k : Nat} {phase : Phase}
    (hk : s.tasks[k]? = some phase) : s.started.count k = phase.hasStarted.toNat := by
  rw [h.started, hk]
  rfl

/-- No unfinished task is left once the pool counts none. -/
theorem finished_of_empty (h : s.Sound c) (hempty : s.pool.tracked = 0) {k : Nat}
    (hk : s.isAccepted k = true) : s.tasks[k]? = some .finished := by
  obtain ⟨phase, hphase, haccepted⟩ := (Option.any_eq_true _ _).mp hk
  rw [h.tracked, List.countP_eq_zero] at hempty
  have hdone := hempty phase (List.mem_of_getElem? hphase)
  cases phase with
  | finished => exact hphase
  | spawned | queued | assigned | running => exact absurd rfl hdone
  | submitting | refused => cases haccepted

/-! ## Tasks that go on -/

/-- The tasks can go on only so often. -/
theorem length_le_remaining (h : s.run moves = some final)
    (hown : ∀ move ∈ moves, move.isOwn = true) : moves.length ≤ s.remaining := by
  induction moves generalizing s with
  | nil => exact Nat.zero_le _
  | cons move moves ih =>
      rw [run_cons, Option.bind_eq_some_iff] at h
      obtain ⟨next, hnext, hrun⟩ := h
      have hrest := ih hrun fun move hmove => hown move (List.mem_cons_of_mem _ hmove)
      have hless := remaining_lt (moved_of_step hnext) (hown move List.mem_cons_self)
      show moves.length + 1 ≤ s.remaining
      omega

/-- A task goes on at most three times. -/
theorem remaining_le (s : System) : s.remaining ≤ 3 * s.tasks.length := by
  have hle : ∀ tasks : List Phase, (tasks.map Phase.remaining).sum ≤ 3 * tasks.length := by
    intro tasks
    induction tasks with
    | nil => exact Nat.le_refl _
    | cons phase tasks ih =>
        have hphase : phase.remaining ≤ 3 := by cases phase <;> simp [Phase.remaining]
        simp only [List.map_cons, List.sum_cons, List.length_cons]
        omega
  exact hle s.tasks

/-- Once no task can go on, all that have been accepted have finished. -/
theorem finished_of_stuck (h : s.Sound c)
    (hstuck : ∀ move, move.isOwn = true → s.step move = none) {k : Nat}
    (hk : s.isAccepted k = true) : s.tasks[k]? = some .finished := by
  obtain ⟨phase, hphase, haccepted⟩ := (Option.any_eq_true _ _).mp hk
  cases hunfinished : phase.isUnfinished with
  | false =>
      cases phase with
      | finished => exact hphase
      | spawned | queued | assigned | running => cases hunfinished
      | submitting | refused => cases haccepted
  | true =>
      obtain ⟨move, hown, next, hnext⟩ := exists_own_of_unfinished h hphase hunfinished
      rw [hstuck move hown] at hnext
      cases hnext

/-! ## Free workers -/

/-- Once all accepted tasks have finished, every worker is available, unless somebody waits for one
of an open pool. -/
theorem available_of_finished (h : s.Sound c)
    (hfinished : ∀ k, s.isAccepted k = true → s.tasks[k]? = some .finished)
    (hpending : s.pool.closed = true ∨ .submitting ∉ s.tasks) :
    s.pool.available = max c 1 := by
  have hphases : ∀ phase ∈ s.tasks, phase = .submitting ∨ phase = .finished ∨ phase = .refused := by
    intro phase hphase
    obtain ⟨k, hk⟩ := List.mem_iff_getElem?.mp hphase
    have hdone : phase.isAccepted = true → some phase = some .finished := fun haccepted =>
      hk ▸ hfinished k ((Option.any_eq_true _ _).mpr ⟨phase, hk, haccepted⟩)
    cases phase with
    | submitting => exact .inl rfl
    | finished => exact .inr (.inl rfl)
    | refused => exact .inr (.inr rfl)
    | spawned | queued | assigned | running => cases hdone rfl
  have hheld : s.tasks.countP Phase.hasWorker = 0 := by
    rw [List.countP_eq_zero]
    intro phase hphase
    rcases hphases phase hphase with rfl | rfl | rfl <;> simp [Phase.hasWorker]
  have hfree : s.pool.free = max c 1 := by
    have hworkers := h.workers
    omega
  unfold available
  rcases hpending with hclosed | hnone
  · rw [if_pos hclosed, hfree]
  · have hqueue : s.pool.queue = [] := by
      refine List.eq_nil_iff_forall_not_mem.mpr fun k hk => ?_
      obtain ⟨phase, hphase, hwaits⟩ := (Option.any_eq_true _ _).mp ((h.waiting k).mp hk)
      have hmem := List.mem_of_getElem? hphase
      rcases hphases phase hmem with rfl | rfl | rfl
      · exact hnone hmem
      · cases hwaits
      · cases hwaits
    rw [hfree, hqueue]
    exact ite_self _

/-! ## Waiting for the pool to be empty -/

/-- A call that began to wait when the pool had been empty `since` times: once the pool has been
empty more often, or the call has returned, every task of `before` that was accepted has finished.
-/
structure Waited (before : System) (w since : Nat) (s : System) : Prop where
  sound : ∃ c, s.Sound c
  kept : ∀ k, before.isAccepted k = true → s.isAccepted k = true
  since : ∃ returned, s.waits[w]? = some ⟨since, returned⟩ ∧
    (since < s.pool.drains ∨ returned = true →
      ∀ k, before.isAccepted k = true → s.tasks[k]? = some .finished)

/-- The pool becomes empty only when it has no unfinished task. -/
theorem drains_of_moved (h : Moved s move next) {since : Nat} (hsince : since < next.pool.drains) :
    since < s.pool.drains ∨ next.pool.tracked = 0 := by
  cases h with
  | spawned | unspawned | submitted | asked | refused | assigned | granted | began | left =>
      exact .inl hsince
  | finished k worker => exact lt_finish hsince
  | closed =>
      refine (lt_watch hsince).imp_right fun hempty => ?_
      show s.pool.close.tracked = 0
      rw [close_tracked]
      exact hempty
  | waiting =>
      refine (lt_watch hsince).imp_right fun hempty => ?_
      show s.pool.watch.tracked = 0
      rw [watch_tracked]
      exact hempty

/-- A call that has been made stays, and returns only when the pool is or has been empty. -/
theorem wait_of_moved (h : Moved s move next) {w since : Nat} {returned : Bool}
    (hw : s.waits[w]? = some ⟨since, returned⟩) :
    next.waits[w]? = some ⟨since, returned⟩ ∨
      next.waits[w]? = some ⟨since, true⟩ ∧ (since < s.pool.drains ∨ next.pool.tracked = 0) := by
  cases h with
  | spawned | unspawned | submitted | asked | refused | assigned | granted | began | finished
  | closed => exact .inl hw
  | waiting =>
      refine .inl ?_
      show (s.waits ++ _)[w]? = _
      rw [List.getElem?_append_left (List.getElem?_eq_some_iff.mp hw).1]
      exact hw
  | left v other hv hdrained =>
      by_cases hwv : w = v
      · subst hwv
        obtain ⟨rfl, rfl⟩ : since = other ∧ returned = false := by simpa [hw] using hv
        refine .inr ⟨?_, empty_of_has_drained hdrained⟩
        show (s.waits.set w _)[w]? = _
        rw [List.getElem?_set_self (List.getElem?_eq_some_iff.mp hw).1]
      · refine .inl ?_
        show (s.waits.set v _)[w]? = _
        rw [List.getElem?_set_ne (Ne.symm hwv)]
        exact hw

/-- A move keeps what holds of a waiting call. -/
theorem waited_of_moved {before : System} {w since : Nat} (hs : Waited before w since s)
    (h : Moved s move next) : Waited before w since next := by
  obtain ⟨c, hsound⟩ := hs.sound
  have hnext := sound_of_moved hsound h
  have hkept : ∀ k, before.isAccepted k = true → next.isAccepted k = true :=
    fun k hk => accepted_of_moved h (hs.kept k hk)
  obtain ⟨returned, hw, hdone⟩ := hs.since
  -- Either all had finished before, or the pool is empty now.
  have hall : (since < s.pool.drains ∨ returned = true) ∨ next.pool.tracked = 0 →
      ∀ k, before.isAccepted k = true → next.tasks[k]? = some .finished := by
    rintro (hbefore | hempty) k hk
    · exact finished_of_moved h (hdone hbefore k hk)
    · exact finished_of_empty hnext hempty (hkept k hk)
  refine ⟨⟨c, hnext⟩, hkept, ?_⟩
  rcases wait_of_moved h hw with hstays | ⟨hleft, hempty⟩
  · refine ⟨returned, hstays, fun hagain => hall ?_⟩
    rcases hagain with hdrains | hreturned
    · exact (drains_of_moved h hdrains).imp_left .inl
    · exact .inl (.inr hreturned)
  · exact ⟨true, hleft, fun _ => hall (hempty.imp_left .inl)⟩

/-- It holds when the call is made. -/
theorem waited_of_wait (h : s.Sound c) : Waited s s.waits.length s.pool.drains s.wait where
  sound := ⟨c, sound_of_moved h .waiting⟩
  kept := fun _ hk => hk
  since := by
    refine ⟨false, ?_, ?_⟩
    · show (s.waits ++ _)[s.waits.length]? = _
      exact List.getElem?_concat_length
    · rintro (hdrains | hreturned) k hk
      · rcases lt_watch hdrains with hless | hempty
        · exact absurd hless (Nat.lt_irrefl _)
        · exact finished_of_empty h hempty hk
      · cases hreturned

/-- A call that waits for the pool to be empty returns only after every task that had been accepted
before it has finished. -/
theorem finished_of_wait (h : s.Sound c) (hrun : s.wait.run moves = some final) {since : Nat}
    (hreturned : final.waits[s.waits.length]? = some ⟨since, true⟩) {k : Nat}
    (hk : s.isAccepted k = true) : final.tasks[k]? = some .finished := by
  have hwaited : Waited s s.waits.length s.pool.drains final :=
    run_keeps (fun _ _ _ hmoved hwaited => waited_of_moved hwaited hmoved) hrun (waited_of_wait h)
  obtain ⟨returned, hw, hdone⟩ := hwaited.since
  obtain ⟨-, rfl⟩ : s.pool.drains = since ∧ returned = true := by simpa [hw] using hreturned
  exact hdone (.inr rfl) k hk

/-! ## The whole of it -/

/-- What a pool with `c` workers makes of its tasks from the state `s` on. -/
structure Bookkept (c : Nat) (s : System) : Prop where
  /-- The pool counts the accepted tasks that have not finished. -/
  counted : s.pool.tracked = s.tasks.countP Phase.isUnfinished
  /-- A task that runs or has finished has started once, and no other has started. -/
  once : ∀ k phase, s.tasks[k]? = some phase → s.started.count k = phase.hasStarted.toNat
  /-- The tasks can go on only so often without calls on the pool. -/
  bounded : ∀ moves final, (∀ move ∈ moves, move.isOwn = true) → s.run moves = some final →
    moves.length ≤ 3 * s.tasks.length
  /-- Whatever is done later, an accepted task stays accepted, and it has finished and has started
  once when no task can go on. -/
  accepted : ∀ k, s.isAccepted k = true → ∀ moves final, s.run moves = some final →
    final.isAccepted k = true ∧
      ((∀ move, move.isOwn = true → final.step move = none) →
        final.tasks[k]? = some .finished ∧ final.started.count k = 1)
  /-- Whatever is done later, a refused task stays refused and never starts. -/
  refused : ∀ k, s.tasks[k]? = some .refused → ∀ moves final, s.run moves = some final →
    final.tasks[k]? = some .refused ∧ k ∉ final.started
  /-- All workers are available once the accepted tasks have finished. -/
  free : (∀ k, s.isAccepted k = true → s.tasks[k]? = some .finished) →
    s.pool.closed = true ∨ .submitting ∉ s.tasks → s.pool.available = max c 1
  /-- If the pool is waited for now, the tasks accepted so far have finished at the return. -/
  waited : ∀ moves final since, s.wait.run moves = some final →
    final.waits[s.waits.length]? = some ⟨since, true⟩ →
    ∀ k, s.isAccepted k = true → final.tasks[k]? = some .finished

/-- Every run leads to a pool that does so. -/
theorem bookkeeping_of_run (h : (of name c).run moves = some s) : s.Bookkept c := by
  have hsound := sound_of_start h
  refine ⟨hsound.tracked, fun k phase => started_of_phase hsound, ?_, ?_, ?_,
    available_of_finished hsound, fun _ _ _ hrun hreturned _ =>
      finished_of_wait hsound hrun hreturned⟩
  · intro moves final hown hrun
    exact Nat.le_trans (length_le_remaining hrun hown) (remaining_le s)
  · intro k hk later final hlater
    have hfinal := sound_of_run hlater hsound
    have haccepted : final.isAccepted k = true :=
      run_keeps (fun _ _ _ hmoved => accepted_of_moved hmoved) hlater hk
    refine ⟨haccepted, fun hstuck => ?_⟩
    have hfinished := finished_of_stuck hfinal hstuck haccepted
    exact ⟨hfinished, started_of_phase hfinal hfinished⟩
  · intro k hk later final hlater
    have hrefused : final.tasks[k]? = some .refused :=
      run_keeps (fun _ _ _ hmoved => refused_of_moved hmoved) hlater hk
    have hcount := started_of_phase (sound_of_run hlater hsound) hrefused
    exact ⟨hrefused, List.count_eq_zero.mp hcount⟩

end

/-! ## A pool that is closed while a task is queued -/

namespace Sample

/-- A pool with one worker is waited for and closed while one task runs, one is queued and one is
submitted. Another one comes too late. -/
def moves : List Move := [
  .spawn, .proceed 0, .proceed 0, .spawn, .proceed 1, .submit, .wait, .close, .proceed 1,
  .proceed 2, .spawn, .finish 0, .finish 1, .leave 0]

/-- The pool at the end. -/
def final : System := ((of "p" 1).run moves).getD (of "p" 1)

end Sample

/-- Two tasks have run, the two others have been refused, and the worker is available again. -/
theorem bookkeeping_of_sample :
    Sample.final.Bookkept 1 ∧ Sample.final.tasks = [.finished, .finished, .refused, .refused] ∧
      Sample.final.started = [0, 1] ∧ Sample.final.pool.available = 1 ∧
      Sample.final.waits = [⟨0, true⟩] := by
  have hrun : (of "p" 1).run Sample.moves = some Sample.final := by decide +kernel
  exact ⟨bookkeeping_of_run hrun, by decide +kernel⟩

end System

end BulkLoad.WorkerPool
