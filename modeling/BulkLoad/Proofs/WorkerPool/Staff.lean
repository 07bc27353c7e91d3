import BulkLoad.Proofs.WorkerPool
import BulkLoad.WorkerPool.System
import Mathlib.Algebra.GroupWithZero.Nat
import Mathlib.Data.List.Nodup

/-!
# Who has the workers of a pool

A pool counts its free workers and its unfinished tasks and keeps the tickets of those who wait for
a worker; each task stands at a phase. `Staffed` says how the pool bears on the phases: every worker
is free or held by one task, the count is that of the accepted tasks that have not finished, and a
ticket is in the queue if its holder waits. A task that joins (`Staffed.joined`) or changes its phase
(`Staffed.turned`) keeps this up if the pool changes accordingly.
-/

namespace BulkLoad.WorkerPool

namespace Phase

/-- Whether the pool has accepted a task in this phase and the task has not finished. -/
def isUnfinished : Phase → Bool
  | spawned | queued | assigned | running _ => true
  | submitting | finished | refused => false

/-- Whether a task in this phase, or its submitter, waits for a worker. -/
def isWaiting : Phase → Bool
  | submitting | queued => true
  | spawned | assigned | running _ | finished | refused => false

/-- Whether a task in this phase holds a worker. -/
def hasWorker : Phase → Bool
  | assigned | running true => true
  | submitting | spawned | queued | running false | finished | refused => false

end Phase

section

variable {tasks : List Phase} {k : Nat} {before : Phase}

/-- Changing one task changes a sum over the tasks by that task. -/
theorem sum_set (f : Phase → Nat) (hk : tasks[k]? = some before) (after : Phase) :
    ((tasks.set k after).map f).sum + f before = (tasks.map f).sum + f after := by
  obtain ⟨hlt, hbefore⟩ := List.getElem?_eq_some_iff.mp hk
  obtain ⟨left, right, htasks, -, hset⟩ := @List.exists_of_set _ k after tasks hlt
  rw [hset, htasks, hbefore]
  simp only [List.map_append, List.map_cons, List.sum_append, List.sum_cons]
  omega

/-- Changing one task changes a count of the tasks by that task. -/
theorem count_set (p : Phase → Bool) (hk : tasks[k]? = some before) (after : Phase) :
    (tasks.set k after).countP p + (p before).toNat = tasks.countP p + (p after).toNat := by
  obtain ⟨hlt, hbefore⟩ := List.getElem?_eq_some_iff.mp hk
  obtain ⟨left, right, htasks, -, hset⟩ := @List.exists_of_set _ k after tasks hlt
  rw [hset, htasks, hbefore]
  simp only [List.countP_append, List.countP_cons]
  cases p before <;> cases p after <;> simp <;> omega

/-- Where everybody stands after somebody has joined. -/
theorem get_joined {α : Type} (all : List α) (last : α) (i : Nat) :
    (all ++ [last])[i]? = if i = all.length then some last else all[i]? := by
  rcases Nat.lt_trichotomy i all.length with hlt | rfl | hgt
  · rw [List.getElem?_append_left hlt, if_neg (by omega)]
  · simp
  · have hlength : (all ++ [last]).length = all.length + 1 := List.length_append
    rw [if_neg (by omega), List.getElem?_eq_none (by omega), List.getElem?_eq_none (by omega)]

/-- Where the tasks stand after one of them has changed. -/
theorem phase_after_set (hk : tasks[k]? = some before) (after : Phase) (i : Nat) :
    (tasks.set k after)[i]? = if i = k then some after else tasks[i]? := by
  obtain ⟨hlt, -⟩ := List.getElem?_eq_some_iff.mp hk
  by_cases hi : i = k
  · subst hi
    simp [hlt]
  · simp [hi, List.getElem?_set_ne (Ne.symm hi)]

end

/-- How the numbers of a pool with at most `c` workers bear on the phases of its tasks, which have
their positions as their tickets. -/
structure Staffed (c : Nat) (p : WorkerPool) (tasks : List Phase) : Prop where
  workers : p.free + tasks.countP Phase.hasWorker = max c 1
  tracked : p.tracked = tasks.countP Phase.isUnfinished
  waiting : ∀ k, k ∈ p.queue ↔ (tasks[k]?).any Phase.isWaiting = true
  distinct : p.queue.Nodup
  manned : p.closed = false → Phase.running false ∉ tasks

namespace Staffed

variable {c : Nat} {p next : WorkerPool} {tasks : List Phase}

/-- Nobody has come to a pool yet. -/
theorem of_empty (name : String) (c : Nat) : Staffed c (.of name c) [] where
  workers := rfl
  tracked := rfl
  waiting := by simp [WorkerPool.of]
  distinct := List.nodup_nil
  manned := fun _ => nofun

/-- A pool whose numbers are the same is staffed as before. It may have been closed. -/
theorem same (h : Staffed c p tasks) (hfree : next.free = p.free)
    (htracked : next.tracked = p.tracked) (hqueue : next.queue = p.queue)
    (hclosed : next.closed = false → p.closed = false) : Staffed c next tasks where
  workers := hfree ▸ h.workers
  tracked := htracked ▸ h.tracked
  waiting := hqueue ▸ h.waiting
  distinct := hqueue ▸ h.distinct
  manned := fun hopen => h.manned (hclosed hopen)

/-- A pool that is watched is staffed as before. -/
theorem watch (h : Staffed c p tasks) : Staffed c p.watch tasks :=
  h.same (watch_free p) (watch_tracked p) (watch_queue p) (by simp)

/-- A pool that is closed is staffed as before. -/
theorem close (h : Staffed c p tasks) : Staffed c p.close tasks :=
  h.same (close_free p) (close_tracked p) (close_queue p) (by simp)

/-- A task that joins holds no worker, and counts and queues as its phase says. -/
theorem joined (h : Staffed c p tasks) (next : WorkerPool) (phase : Phase)
    (hworker : phase.hasWorker = false) (hunmanned : phase ≠ .running false)
    (hfree : next.free = p.free) (hclosed : next.closed = p.closed)
    (htracked : next.tracked = p.tracked + phase.isUnfinished.toNat)
    (hqueue : next.queue = p.queue ++ if phase.isWaiting = true then [tasks.length] else []) :
    Staffed c next (tasks ++ [phase]) := by
  have hnew : tasks.length ∉ p.queue := by
    intro hmem
    have hwaits := (h.waiting _).mp hmem
    simp at hwaits
  refine ⟨?_, ?_, ?_, ?_, ?_⟩
  · rw [hfree, List.countP_append]
    simpa [hworker] using h.workers
  · rw [htracked, List.countP_append, h.tracked]
    cases hphase : phase.isUnfinished <;> simp [hphase]
  · intro i
    rw [hqueue, List.mem_append, h.waiting, get_joined]
    by_cases hi : i = tasks.length
    · subst hi
      cases hwaits : phase.isWaiting <;> simp [hwaits]
    · rw [if_neg hi]
      split <;> simp [hi]
  · rw [hqueue]
    split
    · rw [← List.concat_eq_append]
      exact List.Nodup.concat hnew h.distinct
    · simpa using h.distinct
  · intro hopen hmem
    rw [List.mem_append, List.mem_singleton] at hmem
    rcases hmem with hmem | hmem
    · exact h.manned (hclosed ▸ hopen) hmem
    · exact hunmanned hmem.symm

/-- The free workers and the count change as the phase of a task does, and the queue holds its
ticket if it waits. -/
theorem turned (h : Staffed c p tasks) (next : WorkerPool) (after : Phase) {k : Nat}
    {before : Phase} (hk : tasks[k]? = some before)
    (hfree : next.free + after.hasWorker.toNat = p.free + before.hasWorker.toNat)
    (htracked : next.tracked + before.isUnfinished.toNat = p.tracked + after.isUnfinished.toNat)
    (hqueue : ∀ i, i ∈ next.queue ↔ if i = k then after.isWaiting = true else i ∈ p.queue)
    (hdistinct : next.queue.Nodup)
    (hmanned : next.closed = false → p.closed = false ∧ after ≠ .running false) :
    Staffed c next (tasks.set k after) := by
  refine ⟨?_, ?_, ?_, hdistinct, ?_⟩
  · have hcount := count_set Phase.hasWorker hk after
    have hworkers := h.workers
    omega
  · have hcount := count_set Phase.isUnfinished hk after
    have htracks := h.tracked
    omega
  · intro i
    rw [hqueue, phase_after_set hk]
    by_cases hi : i = k
    · simp [hi]
    · simp only [hi, if_false]
      exact h.waiting i
  · intro hopen hmem
    obtain ⟨hbefore, hafter⟩ := hmanned hopen
    rcases List.mem_or_eq_of_mem_set hmem with hmem | hmem
    · exact h.manned hbefore hmem
    · exact hafter hmem.symm

/-- Whoever leaves the queue is not in it any more, and all others are. -/
theorem mem_erase (h : Staffed c p tasks) (k i : Nat) {after : Phase}
    (hafter : after.isWaiting = false) :
    i ∈ p.queue.erase k ↔ if i = k then after.isWaiting = true else i ∈ p.queue := by
  rw [h.distinct.mem_erase_iff]
  by_cases hi : i = k <;> simp [hi, hafter]

/-- A task that does not wait changes its phase without the queue. -/
theorem mem_queue (h : Staffed c p tasks) {k : Nat} {before after : Phase}
    (hk : tasks[k]? = some before) (hbefore : before.isWaiting = false)
    (hafter : after.isWaiting = false) (i : Nat) :
    i ∈ p.queue ↔ if i = k then after.isWaiting = true else i ∈ p.queue := by
  by_cases hi : i = k
  · subst hi
    simp [h.waiting, hk, hbefore, hafter]
  · simp [hi]

/-- A task asks for a worker. If it was not accepted before, it is now. -/
theorem enqueued (h : Staffed c p tasks) (next : WorkerPool) {k : Nat} {before : Phase}
    (hk : tasks[k]? = some before)
    (hbefore : before.isWaiting = false) (hworker : before.hasWorker = false)
    (hfree : next.free = p.free) (hclosed : next.closed = p.closed)
    (htracked : next.tracked + before.isUnfinished.toNat = p.tracked + 1)
    (hqueue : next.queue = p.queue ++ [k]) : Staffed c next (tasks.set k .queued) := by
  have hnew : k ∉ p.queue := by
    rw [h.waiting, hk]
    simp [hbefore]
  refine h.turned next .queued hk (by rw [hfree, hworker]; rfl) htracked ?_ ?_
    fun hopen => ⟨hclosed ▸ hopen, nofun⟩
  · intro i
    rw [hqueue]
    by_cases hi : i = k <;> simp [hi, Phase.isWaiting]
  · rw [hqueue, ← List.concat_eq_append]
    exact List.Nodup.concat hnew h.distinct

/-- A task that waits for a worker begins to run. It takes a worker if the pool is open. -/
theorem granted (h : Staffed c p tasks) {k : Nat} (hk : tasks[k]? = some .queued)
    (hmay : p.mayProceed k = true) :
    Staffed c (p.grant k) (tasks.set k (.running (!p.closed))) := by
  have hfree := grant_free hmay
  refine h.turned _ _ hk ?_ rfl (fun i => h.mem_erase k i rfl) (h.distinct.erase k) ?_
  · cases hclosed : p.closed <;> simp only [hclosed] at hfree <;>
      simpa [Phase.hasWorker] using hfree
  · intro hopen
    have hclosed : p.closed = false := hopen
    simp [hclosed]

/-- A task that runs finishes and gives back the worker that it has. -/
theorem finished (h : Staffed c p tasks) {k : Nat} {worker : Bool}
    (hk : tasks[k]? = some (.running worker)) :
    Staffed c (p.finish worker) (tasks.set k .finished) := by
  have hpos : 0 < p.tracked := by
    rw [h.tracked]
    exact List.countP_pos_iff.mpr ⟨_, List.mem_of_getElem? hk, rfl⟩
  refine h.turned _ _ hk ?_ ?_ (fun i => ?_) ?_ fun hopen => ⟨by simpa using hopen, nofun⟩
  · rw [finish_free]
    cases worker <;> rfl
  · show (p.finish worker).tracked + 1 = p.tracked + 0
    rw [finish_tracked]
    omega
  · rw [finish_queue]
    exact h.mem_queue hk rfl rfl i
  · rw [finish_queue]
    exact h.distinct

/-- While somebody waits, the first of those who wait may go on, or some task holds a worker. -/
theorem exists_may_or_holder (h : Staffed c p tasks) {k : Nat} (hk : k ∈ p.queue) :
    (∃ first rest, p.queue = first :: rest ∧ p.mayProceed first = true) ∨
      p.closed = false ∧ ∃ (i : Nat) (holder : Phase), tasks[i]? = some holder ∧
        holder.hasWorker = true := by
  obtain ⟨first, rest, hqueue⟩ := List.exists_cons_of_ne_nil (List.ne_nil_of_mem hk)
  cases hclosed : p.closed with
  | true => exact .inl ⟨first, rest, hqueue, may_of_closed hclosed (hqueue ▸ List.mem_cons_self)⟩
  | false =>
      by_cases hfree : 0 < p.free
      · exact .inl ⟨first, rest, hqueue, may_of_first hfree hqueue⟩
      · have hworkers := h.workers
        have hheld : 0 < tasks.countP Phase.hasWorker := by omega
        obtain ⟨holder, hholder, hworker⟩ := List.countP_pos_iff.mp hheld
        obtain ⟨i, hi⟩ := List.mem_iff_getElem?.mp hholder
        exact .inr ⟨rfl, i, holder, hi, hworker⟩

end Staffed

end BulkLoad.WorkerPool
