import BulkLoad.Proofs.Steps
import BulkLoad.Proofs.WorkerPool.Staff

/-!
# What can be done with a pool

Tasks reach a pool in two ways, wait for its workers in one queue, and may wait, run or still have
to ask for a worker when the pool is closed. `Moved` lists by name what a move can do; read
`moved_of_step` first. Every system that a run can get to is `Sound` (`sound_of_run`): its pool is
staffed as the phases of its tasks say, and each task has started as often as its phase says. As
long as an accepted task has not finished some task can go on (`exists_own_of_unfinished`), and each
time that one does there is less to do (`remaining_lt`).
-/

namespace BulkLoad.WorkerPool

namespace Phase

/-- Whether the pool has accepted a task in this phase. -/
def isAccepted : Phase → Bool
  | spawned | queued | assigned | running _ | finished => true
  | submitting | refused => false

/-- Whether a task in this phase runs. -/
def isRunning : Phase → Bool
  | running _ => true
  | submitting | spawned | queued | assigned | finished | refused => false

/-- Whether a task in this phase has begun to run. -/
def hasStarted : Phase → Bool
  | running _ | finished => true
  | submitting | spawned | queued | assigned | refused => false

/-- How often a task in this phase can still go on. -/
def remaining : Phase → Nat
  | submitting | spawned => 3
  | queued | assigned => 2
  | running _ => 1
  | finished | refused => 0

/-- How a task that goes on or finishes changes its phase. -/
inductive GoesTo : Phase → Phase → Prop where
  | asked : GoesTo spawned queued
  | refused : GoesTo submitting refused
  | assigned : GoesTo submitting assigned
  | granted (worker : Bool) : GoesTo queued (running worker)
  | began : GoesTo assigned (running true)
  | finished (worker : Bool) : GoesTo (running worker) finished

variable {before after : Phase}

/-- A task that has been accepted stays accepted. -/
theorem GoesTo.accepted (h : GoesTo before after) (haccepted : before.isAccepted = true) :
    after.isAccepted = true := by
  cases h with
  | asked | assigned | granted | began | finished => rfl
  | refused => cases haccepted

/-- A task that was refused goes nowhere. -/
theorem GoesTo.not_refused (h : GoesTo before after) : before ≠ .refused := by
  cases h <;> nofun

/-- A task can go on less often each time that it does. -/
theorem GoesTo.remaining_lt (h : GoesTo before after) : after.remaining < before.remaining := by
  cases h <;> simp [remaining]

end Phase

namespace System

/-- A pool without tasks. -/
def of (name : String) (concurrency : Nat) : System := { pool := .of name concurrency }

/-! ## What a move can do -/

/-- What a move leads to. -/
inductive Moved (s : System) : Move → System → Prop where
  | spawned (hopen : s.pool.closed = false) :
      Moved s .spawn { s with pool := s.pool.accept, tasks := s.tasks ++ [.spawned] }
  | unspawned (hclosed : s.pool.closed = true) :
      Moved s .spawn { s with tasks := s.tasks ++ [.refused] }
  | submitted : Moved s .submit s.submit
  | asked (k : Nat) (hk : s.tasks[k]? = some .spawned) :
      Moved s (.proceed k) (s.put k .queued (s.pool.enqueue k))
  | refused (k : Nat) (hk : s.tasks[k]? = some .submitting) (hclosed : s.pool.closed = true) :
      Moved s (.proceed k) (s.put k .refused (s.pool.refuse k))
  | assigned (k : Nat) (hk : s.tasks[k]? = some .submitting) (hopen : s.pool.closed = false)
      (hmay : s.pool.mayProceed k = true) :
      Moved s (.proceed k) (s.put k .assigned (s.pool.grant k).accept)
  | granted (k : Nat) (hk : s.tasks[k]? = some .queued) (hmay : s.pool.mayProceed k = true) :
      Moved s (.proceed k) (s.start k (!s.pool.closed) (s.pool.grant k))
  | began (k : Nat) (hk : s.tasks[k]? = some .assigned) :
      Moved s (.proceed k) (s.start k true s.pool)
  | finished (k : Nat) (worker : Bool) (hk : s.tasks[k]? = some (.running worker)) :
      Moved s (.finish k) (s.put k .finished (s.pool.finish worker))
  | closed : Moved s .close s.close
  | waiting : Moved s .wait s.wait
  | left (w since : Nat) (hw : s.waits[w]? = some ⟨since, false⟩)
      (hdrained : s.pool.hasDrained since = true) :
      Moved s (.leave w) { s with waits := s.waits.set w ⟨since, true⟩ }

variable {s next final : System} {move : Move} {moves : List Move} {c : Nat} {name : String}

/-- Every move does one of the things that `Moved` lists. -/
theorem moved_of_step (h : s.step move = some next) : Moved s move next := by
  cases move with
  | spawn =>
      cases h
      cases hclosed : s.pool.closed with
      | true =>
          simp only [spawn, WorkerPool.spawn, hclosed, if_true]
          exact .unspawned hclosed
      | false =>
          simp only [spawn, WorkerPool.spawn, hclosed, Bool.false_eq_true, if_false]
          exact .spawned hclosed
  | submit =>
      cases h
      exact .submitted
  | proceed k =>
      simp only [step, proceed?] at h
      split at h
      · rename_i hk
        cases hclosed : s.pool.closed with
        | true =>
            simp only [hclosed, if_true, Option.ite_none_right_eq_some] at h
            cases h.2
            exact .refused k hk hclosed
        | false =>
            simp only [hclosed, Bool.false_eq_true, if_false, Option.ite_none_right_eq_some] at h
            cases h.2
            exact .assigned k hk hclosed h.1
      · cases h
        exact .asked k ‹_›
      · split at h
        · cases h
          exact .granted k ‹_› ‹_›
        · cases h
      · cases h
        exact .began k ‹_›
      · cases h
  | finish k =>
      simp only [step, finish?] at h
      split at h
      · cases h
        exact .finished k _ ‹_›
      · cases h
  | close =>
      cases h
      exact .closed
  | wait =>
      cases h
      exact .waiting
  | leave w =>
      simp only [step, leave?] at h
      split at h
      · split at h
        · cases h
          exact .left w _ ‹_› ‹_›
        · cases h
      · cases h

/-- Whether a move is the progress of a task, and not a call on the pool. -/
def Move.isOwn : Move → Bool
  | .proceed _ | .finish _ => true
  | .spawn | .submit | .close | .wait | .leave _ => false

/-- What a move does to the tasks: one of them goes on, one joins them, or none is touched. -/
inductive Shifted (s next : System) : Move → Prop where
  | turned (k : Nat) (before after : Phase) (move : Move)
      (hmove : move = .proceed k ∨ move = .finish k) (hk : s.tasks[k]? = some before)
      (hgoes : before.GoesTo after) (htasks : next.tasks = s.tasks.set k after) :
      Shifted s next move
  | joined (phase : Phase) (move : Move) (hcall : move.isOwn = false)
      (htasks : next.tasks = s.tasks ++ [phase]) : Shifted s next move
  | stayed (move : Move) (hcall : move.isOwn = false) (htasks : next.tasks = s.tasks) :
      Shifted s next move

/-- Every move does one of these. -/
theorem Moved.shifted (h : Moved s move next) : Shifted s next move := by
  cases h with
  | spawned | unspawned | submitted => exact .joined _ _ rfl rfl
  | asked k hk => exact .turned k _ _ _ (.inl rfl) hk .asked rfl
  | refused k hk => exact .turned k _ _ _ (.inl rfl) hk .refused rfl
  | assigned k hk => exact .turned k _ _ _ (.inl rfl) hk .assigned rfl
  | granted k hk => exact .turned k _ _ _ (.inl rfl) hk (.granted _) rfl
  | began k hk => exact .turned k _ _ _ (.inl rfl) hk .began rfl
  | finished k worker hk => exact .turned k _ _ _ (.inr rfl) hk (.finished worker) rfl
  | closed | waiting | left => exact .stayed _ rfl rfl

/-- A task stays in its phase or goes on. -/
theorem phase_of_moved (h : Moved s move next) {k : Nat} {before : Phase}
    (hk : s.tasks[k]? = some before) :
    next.tasks[k]? = some before ∨ ∃ after, next.tasks[k]? = some after ∧ before.GoesTo after := by
  cases h.shifted with
  | turned m other after move _ hm hgoes htasks =>
      rw [htasks, phase_after_set hm]
      by_cases hkm : k = m
      · subst hkm
        obtain rfl : other = before := Option.some.inj (hm.symm.trans hk)
        exact .inr ⟨after, if_pos rfl, hgoes⟩
      · exact .inl ((if_neg hkm).trans hk)
  | joined phase move _ htasks =>
      rw [htasks, List.getElem?_append_left (List.getElem?_eq_some_iff.mp hk).1]
      exact .inl hk
  | stayed move _ htasks => exact .inl (htasks ▸ hk)

/-! ## What a pool keeps count of -/

/-- A pool with at most `c` workers is staffed as the phases of its tasks say, and each task has
started as often as its phase says. -/
structure Sound (c : Nat) (s : System) : Prop extends Staffed c s.pool s.tasks where
  started : ∀ k, s.started.count k = ((s.tasks[k]?).any Phase.hasStarted).toNat

/-- A task that goes on has started once more if it begins to run. -/
theorem Sound.turned (h : s.Sound c) {k : Nat} {before after : Phase}
    (hk : s.tasks[k]? = some before) (htasks : next.tasks = s.tasks.set k after)
    (hstaffed : Staffed c next.pool (s.tasks.set k after))
    (hstarted : next.started = s.started ++
      if before.hasStarted = false ∧ after.hasStarted = true then [k] else [])
    (hlater : before.hasStarted = true → after.hasStarted = true) : next.Sound c := by
  refine ⟨htasks ▸ hstaffed, ?_⟩
  intro i
  have hcount := h.started i
  rw [hstarted, htasks, phase_after_set hk, List.count_append]
  by_cases hi : i = k
  · subst hi
    rw [hk] at hcount
    cases hbefore : before.hasStarted <;> cases hafter : after.hasStarted <;>
      simp_all
  · have hnone : List.count i
        (if before.hasStarted = false ∧ after.hasStarted = true then [k] else []) = 0 := by
      split
      · exact List.count_singleton.trans (if_neg (by simpa using Ne.symm hi))
      · rfl
    rw [hnone, if_neg hi]
    exact hcount

/-- A task that joins has not started. -/
theorem Sound.joined (h : s.Sound c) (phase : Phase) (htasks : next.tasks = s.tasks ++ [phase])
    (hstaffed : Staffed c next.pool (s.tasks ++ [phase])) (hunstarted : phase.hasStarted = false)
    (hstarted : next.started = s.started) : next.Sound c := by
  refine ⟨htasks ▸ hstaffed, ?_⟩
  intro i
  rw [hstarted, htasks, h.started, get_joined]
  by_cases hi : i = s.tasks.length
  · subst hi
    simp [hunstarted]
  · rw [if_neg hi]

/-- A move keeps a system sound. -/
theorem sound_of_moved (hs : s.Sound c) (h : Moved s move next) : next.Sound c := by
  have hstaffed := hs.toStaffed
  cases h with
  | spawned =>
      have hnext := hstaffed.joined s.pool.accept .spawned rfl nofun rfl rfl rfl
        (List.append_nil _).symm
      exact hs.joined .spawned rfl hnext rfl rfl
  | unspawned =>
      have hnext := hstaffed.joined s.pool .refused rfl nofun rfl rfl rfl (List.append_nil _).symm
      exact hs.joined .refused rfl hnext rfl rfl
  | submitted =>
      have hnext := hstaffed.joined (s.pool.enqueue s.tasks.length) .submitting rfl nofun rfl rfl
        rfl rfl
      exact hs.joined .submitting rfl hnext rfl rfl
  | asked k hk =>
      have hnext := hstaffed.enqueued (s.pool.enqueue k) hk rfl rfl rfl rfl rfl rfl
      exact hs.turned hk rfl hnext (by simp [put, Phase.hasStarted]) nofun
  | refused k hk hclosed =>
      have hnext := hstaffed.turned (s.pool.refuse k) .refused hk rfl rfl
        (fun i => hstaffed.mem_erase k i rfl) (hstaffed.distinct.erase k)
        (fun hopen => ⟨hopen, nofun⟩)
      exact hs.turned hk rfl hnext (by simp [put, Phase.hasStarted]) nofun
  | assigned k hk hopen hmay =>
      have hfree := grant_free hmay
      rw [hopen] at hfree
      have hnext := hstaffed.turned (s.pool.grant k).accept .assigned hk hfree
        rfl (fun i => hstaffed.mem_erase k i rfl) (hstaffed.distinct.erase k)
        (fun _ => ⟨hopen, nofun⟩)
      exact hs.turned hk rfl hnext (by simp [put, Phase.hasStarted]) nofun
  | granted k hk hmay =>
      exact hs.turned hk rfl (hstaffed.granted hk hmay) (by simp [start, Phase.hasStarted]) nofun
  | began k hk =>
      have hnext := hstaffed.turned s.pool (.running true) hk rfl rfl
        (hstaffed.mem_queue hk rfl rfl) hstaffed.distinct (fun hopen => ⟨hopen, nofun⟩)
      exact hs.turned hk rfl hnext (by simp [start, Phase.hasStarted]) nofun
  | finished k worker hk =>
      exact hs.turned hk rfl (hstaffed.finished hk) (by simp [put, Phase.hasStarted]) fun _ => rfl
  | closed => exact ⟨hstaffed.close, hs.started⟩
  | waiting => exact ⟨hstaffed.watch, hs.started⟩
  | left => exact ⟨hstaffed, hs.started⟩

/-- A pool without tasks is in step with them. -/
theorem sound_of_empty (name : String) (c : Nat) : (of name c).Sound c :=
  ⟨.of_empty name c, fun _ => rfl⟩

/-! ## Along a run -/

/-- The first of several moves is made before the others. -/
theorem run_cons : s.run (move :: moves) = (s.step move).bind fun next => next.run moves := rfl

/-- What every move keeps, every run keeps. -/
theorem run_keeps {P : System → Prop} (hkeeps : ∀ s next move, Moved s move next → P s → P next)
    (h : s.run moves = some final) (hs : P s) : P final :=
  Steps.keeps (fun _ hs hstep => hkeeps _ _ _ (moved_of_step hstep) hs) hs h

/-- A run keeps the numbers of a pool in step with its tasks. -/
theorem sound_of_run (h : s.run moves = some final) (hs : s.Sound c) : final.Sound c :=
  run_keeps (fun _ _ _ hmoved hsound => sound_of_moved hsound hmoved) h hs

/-- Every system that a run gets to is in step with its tasks. -/
theorem sound_of_start (h : (of name c).run moves = some final) : final.Sound c :=
  sound_of_run h (sound_of_empty name c)

/-- A closed pool stays closed and accepts nothing more. -/
theorem closed_of_moved (h : Moved s move next) (hclosed : s.pool.closed = true) :
    next.pool.closed = true ∧ next.pool.tracked ≤ s.pool.tracked := by
  cases h with
  | spawned hopen | assigned _ _ hopen _ =>
      rw [hclosed] at hopen
      cases hopen
  | unspawned | submitted | asked | refused | granted | began | left =>
      exact ⟨hclosed, Nat.le_refl _⟩
  | finished k worker hk =>
      refine ⟨(finish_closed _ _).trans hclosed, ?_⟩
      show (s.pool.finish worker).tracked ≤ s.pool.tracked
      rw [finish_tracked]
      omega
  | closed => exact ⟨close_closed _, Nat.le_of_eq (close_tracked _)⟩
  | waiting => exact ⟨(watch_closed _).trans hclosed, Nat.le_of_eq (watch_tracked _)⟩

/-- Along a run too. -/
theorem closed_of_run (h : s.run moves = some final) (hclosed : s.pool.closed = true) :
    final.pool.closed = true ∧ final.pool.tracked ≤ s.pool.tracked := by
  have hkeeps : ∀ before next move, Moved before move next →
      before.pool.closed = true ∧ before.pool.tracked ≤ s.pool.tracked →
      next.pool.closed = true ∧ next.pool.tracked ≤ s.pool.tracked := by
    intro before next move hmoved ⟨hshut, hle⟩
    obtain ⟨hnext, hless⟩ := closed_of_moved hmoved hshut
    exact ⟨hnext, Nat.le_trans hless hle⟩
  exact run_keeps hkeeps h ⟨hclosed, Nat.le_refl _⟩

/-! ## Who can go on -/

/-- A task that has been accepted and does not wait for a worker can go on. -/
theorem exists_own_move {k : Nat} {phase : Phase} (hk : s.tasks[k]? = some phase)
    (hunfinished : phase.isUnfinished = true) (hready : phase ≠ .queued) :
    ∃ move, move.isOwn = true ∧ ∃ next, s.step move = some next := by
  cases phase with
  | spawned => exact ⟨.proceed k, rfl, _, by simp only [step, proceed?, hk]; rfl⟩
  | assigned => exact ⟨.proceed k, rfl, _, by simp only [step, proceed?, hk]; rfl⟩
  | running worker => exact ⟨.finish k, rfl, _, by simp only [step, finish?, hk]; rfl⟩
  | queued => exact absurd rfl hready
  | submitting | finished | refused => cases hunfinished

/-- Whoever may have a worker goes on. -/
theorem exists_proceed_of_may (h : s.Sound c) {k : Nat} (hmay : s.pool.mayProceed k = true) :
    ∃ next, s.step (.proceed k) = some next := by
  have hwaits := (h.waiting k).mp (queued_of_may hmay).1
  obtain ⟨phase, hk, hphase⟩ := (Option.any_eq_true _ _).mp hwaits
  cases phase with
  | submitting =>
      simp only [step, proceed?, hk, hmay, if_true]
      split <;> exact ⟨_, rfl⟩
  | queued => exact ⟨_, by simp only [step, proceed?, hk, hmay, if_true]; rfl⟩
  | spawned | assigned | running | finished | refused => cases hphase

/-- While an accepted task has not finished, some task can go on. A task that waits for a worker
waits for the one at the front of the queue, and that one waits for those that hold a worker. -/
theorem exists_own_of_unfinished (h : s.Sound c) {k : Nat} {phase : Phase}
    (hk : s.tasks[k]? = some phase) (hunfinished : phase.isUnfinished = true) :
    ∃ move, move.isOwn = true ∧ ∃ next, s.step move = some next := by
  by_cases hqueued : phase = .queued
  · subst hqueued
    have hmem : k ∈ s.pool.queue := by
      rw [h.waiting, hk]
      rfl
    rcases h.exists_may_or_holder hmem with ⟨first, rest, -, hmay⟩ | ⟨-, i, holder, hi, hworker⟩
    · exact ⟨.proceed first, rfl, exists_proceed_of_may h hmay⟩
    · cases holder with
      | assigned | running => exact exists_own_move hi rfl nofun
      | submitting | spawned | queued | finished | refused => cases hworker
  · exact exists_own_move hk hunfinished hqueued

/-- What the tasks can still do on their own. -/
def remaining (s : System) : Nat := (s.tasks.map Phase.remaining).sum

/-- Each move of a task leaves less to do. -/
theorem remaining_lt (h : Moved s move next) (hown : move.isOwn = true) :
    next.remaining < s.remaining := by
  cases h.shifted with
  | turned k before after move _ hk hgoes htasks =>
      have hsum := sum_set Phase.remaining hk after
      have hlt := hgoes.remaining_lt
      rw [remaining, remaining, htasks]
      omega
  | joined _ _ hcall | stayed _ hcall =>
      rw [hcall] at hown
      cases hown

end System

end BulkLoad.WorkerPool
