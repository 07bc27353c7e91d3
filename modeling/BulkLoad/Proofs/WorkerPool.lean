import BulkLoad.WorkerPool
import Mathlib.Data.List.Basic

/-!
# What a worker pool notes

Once a pool is watched it notes each time that it has no task left. Whoever waits for that goes by
the number of notes, so what matters here is when the number grows: only when the pool is empty.
-/

namespace BulkLoad.WorkerPool

variable (p : WorkerPool)

/-- Noting leaves the pool open or closed. -/
@[simp] theorem note_drained_closed : p.noteDrained.closed = p.closed := by
  unfold noteDrained
  split <;> rfl

/-- Noting leaves the number of tasks. -/
@[simp] theorem note_drained_tracked : p.noteDrained.tracked = p.tracked := by
  unfold noteDrained
  split <;> rfl

/-- Noting leaves the queue. -/
@[simp] theorem note_drained_queue : p.noteDrained.queue = p.queue := by
  unfold noteDrained
  split <;> rfl

/-- Noting leaves the free workers. -/
@[simp] theorem note_drained_free : p.noteDrained.free = p.free := by
  unfold noteDrained
  split <;> rfl

/-- Noting goes on watching the pool. -/
@[simp] theorem note_drained_is_watched : p.noteDrained.isWatched = p.isWatched := by
  unfold noteDrained
  split <;> rfl

/-- Finishing a task leaves the pool open or closed. -/
@[simp] theorem finish_closed (worker : Bool) : (p.finish worker).closed = p.closed :=
  note_drained_closed _

/-- Finishing a task takes it off the count. -/
@[simp] theorem finish_tracked (worker : Bool) : (p.finish worker).tracked = p.tracked - 1 :=
  note_drained_tracked _

/-- Finishing a task leaves the queue. -/
@[simp] theorem finish_queue (worker : Bool) : (p.finish worker).queue = p.queue :=
  note_drained_queue _

/-- Watching leaves the pool open or closed. -/
@[simp] theorem watch_closed : p.watch.closed = p.closed := by
  unfold watch
  split
  · rfl
  · exact note_drained_closed _

/-- Watching leaves the number of tasks. -/
@[simp] theorem watch_tracked : p.watch.tracked = p.tracked := by
  unfold watch
  split
  · rfl
  · exact note_drained_tracked _

/-- Watching leaves the queue. -/
@[simp] theorem watch_queue : p.watch.queue = p.queue := by
  unfold watch
  split
  · rfl
  · exact note_drained_queue _

/-- Watching leaves the free workers. -/
@[simp] theorem watch_free : p.watch.free = p.free := by
  unfold watch
  split
  · rfl
  · exact note_drained_free _

/-- Closing leaves the number of tasks. -/
@[simp] theorem close_tracked : p.close.tracked = p.tracked := watch_tracked _

/-- Closing leaves the queue. -/
@[simp] theorem close_queue : p.close.queue = p.queue := watch_queue _

/-- Closing leaves the free workers. -/
@[simp] theorem close_free : p.close.free = p.free := watch_free _

/-- A closed pool is closed. -/
@[simp] theorem close_closed : p.close.closed = true := watch_closed _

/-- A pool that has been watched once is watched. -/
@[simp] theorem watch_is_watched : p.watch.isWatched = true := by
  unfold watch
  split
  · assumption
  · exact note_drained_is_watched _

/-- Finishing a task goes on watching the pool. -/
@[simp] theorem finish_is_watched (worker : Bool) :
    (p.finish worker).isWatched = p.isWatched := note_drained_is_watched _

variable {p} {next : WorkerPool} {since ticket other : Nat}

/-! ## Who may go on -/

/-- Whoever has a ticket may go on if the pool is closed, or has more free workers than there are
tickets before it. -/
theorem may_proceed_iff : p.mayProceed ticket = true ↔
    ticket ∈ p.queue ∧ (p.closed = true ∨ p.queue.idxOf ticket < p.free) := by
  simp only [mayProceed, Bool.and_eq_true, Bool.or_eq_true, List.contains_iff_mem,
    decide_eq_true_eq]

/-- Whoever may go on has a ticket in the queue, and there is a free worker if the pool is open. -/
theorem queued_of_may (h : p.mayProceed ticket = true) :
    ticket ∈ p.queue ∧ (p.closed = false → 0 < p.free) := by
  rw [may_proceed_iff] at h
  refine ⟨h.1, fun hopen => ?_⟩
  rcases h.2 with hclosed | hfree
  · rw [hopen] at hclosed
    cases hclosed
  · omega

/-- Nobody waits for a worker of a closed pool. -/
theorem may_of_closed (hclosed : p.closed = true) (hqueue : ticket ∈ p.queue) :
    p.mayProceed ticket = true := by
  simp [mayProceed, hclosed, hqueue]

/-- Whoever has the first ticket may go on if there is a free worker. -/
theorem may_of_first {rest : List Nat} (hfree : 0 < p.free) (hqueue : p.queue = ticket :: rest) :
    p.mayProceed ticket = true := by
  simp [mayProceed, hqueue, hfree]

/-- Whoever has a ticket before that of somebody who may go on may go on as well. -/
theorem may_of_before (h : p.mayProceed ticket = true) (hother : other ∈ p.queue)
    (hbefore : p.queue.idxOf other ≤ p.queue.idxOf ticket) : p.mayProceed other = true := by
  rw [may_proceed_iff] at h ⊢
  refine ⟨hother, h.2.imp_right fun hplace => ?_⟩
  omega

/-- Whoever may go on may still do so in a pool that has as many free workers for the tickets before
it, or has been closed. -/
theorem may_of_place (h : p.mayProceed ticket = true) (hticket : ticket ∈ next.queue)
    (hclosed : p.closed = true → next.closed = true)
    (hplace : next.queue.idxOf ticket + p.free ≤ p.queue.idxOf ticket + next.free) :
    next.mayProceed ticket = true := by
  rw [may_proceed_iff] at h ⊢
  refine ⟨hticket, h.2.imp hclosed fun hfree => ?_⟩
  omega

/-- Whoever may go on may still do so where no ticket is taken and no worker. -/
theorem may_of_same (h : p.mayProceed ticket = true) (hqueue : next.queue = p.queue)
    (hclosed : p.closed = true → next.closed = true) (hfree : p.free ≤ next.free) :
    next.mayProceed ticket = true := by
  refine may_of_place h (hqueue ▸ (queued_of_may h).1) hclosed ?_
  rw [hqueue]
  omega

/-- Whoever may go on may still do so when somebody else has a ticket after it. -/
theorem may_of_enqueue (h : p.mayProceed ticket = true) :
    (p.enqueue other).mayProceed ticket = true := by
  have hticket := (queued_of_may h).1
  refine may_of_place h (List.mem_append_left _ hticket) id ?_
  show (p.queue ++ [other]).idxOf ticket + p.free ≤ _
  rw [List.idxOf_append_of_mem hticket]
  exact Nat.le_refl _

/-- A ticket that is taken out of a queue lets those behind it move up. -/
theorem idx_of_erase (queue : List Nat) (hne : ticket ≠ other) :
    (queue.erase other).idxOf ticket +
      (if queue.idxOf other < queue.idxOf ticket then 1 else 0) = queue.idxOf ticket := by
  induction queue with
  | nil => rfl
  | cons first rest ih =>
      by_cases hother : first = other
      · subst hother
        rw [List.erase_cons_head, List.idxOf_cons_self, List.idxOf_cons_ne _ hne.symm,
          if_pos (Nat.succ_pos _)]
      · rw [List.erase_cons_tail (by simpa using hother), List.idxOf_cons_ne _ hother]
        by_cases hticket : first = ticket
        · subst hticket
          rw [List.idxOf_cons_self, List.idxOf_cons_self, if_neg (Nat.not_lt_zero _)]
        · rw [List.idxOf_cons_ne _ hticket, List.idxOf_cons_ne _ hticket]
          simp only [Nat.succ_lt_succ_iff]
          omega

/-- Whoever may go on may still do so when somebody else has taken a worker. -/
theorem may_of_grant (h : p.mayProceed ticket = true) (hother : p.mayProceed other = true)
    (hne : ticket ≠ other) : (p.grant other).mayProceed ticket = true := by
  have hplace := idx_of_erase p.queue hne
  rw [may_proceed_iff] at h hother ⊢
  refine ⟨(List.mem_erase_of_ne hne).mpr h.1, ?_⟩
  cases hclosed : p.closed with
  | true => exact .inl hclosed
  | false =>
      refine .inr ?_
      show (p.queue.erase other).idxOf ticket < if p.closed then p.free else p.free - 1
      rw [hclosed] at h hother
      rw [hclosed, if_neg Bool.false_ne_true]
      have hapart : p.queue.idxOf ticket ≠ p.queue.idxOf other := fun hsame =>
        hne (List.idxOf_inj h.1 |>.mp hsame)
      have hticketFree := h.2.resolve_left Bool.false_ne_true
      have hotherFree := hother.2.resolve_left Bool.false_ne_true
      split at hplace <;> omega

/-- Whoever may go on may still do so when somebody else has been turned away. -/
theorem may_of_refuse (h : p.mayProceed ticket = true) (hne : ticket ≠ other) :
    (p.refuse other).mayProceed ticket = true := by
  refine may_of_place h ((List.mem_erase_of_ne hne).mpr (queued_of_may h).1) id ?_
  have hplace := idx_of_erase p.queue hne
  show (p.queue.erase other).idxOf ticket + p.free ≤ p.queue.idxOf ticket + p.free
  omega

/-- A worker that is taken is not free any more, and none is taken of a closed pool. -/
theorem grant_free (h : p.mayProceed ticket = true) :
    (p.grant ticket).free + (!p.closed).toNat = p.free := by
  have hfree := (queued_of_may h).2
  cases hclosed : p.closed with
  | true => simp [grant, hclosed]
  | false =>
      have hpos := hfree hclosed
      simp only [grant, hclosed, Bool.false_eq_true, if_false, Bool.not_false, Bool.toNat_true]
      omega

/-- A worker that is given back is free. -/
theorem finish_free (p : WorkerPool) (worker : Bool) :
    (p.finish worker).free = p.free + worker.toNat := by
  cases worker <;> simp [finish]

/-! ## When a note is added -/

/-- A note is added only when the pool is empty. -/
theorem lt_note_drained (h : since < p.noteDrained.drains) : since < p.drains ∨ p.tracked = 0 := by
  unfold noteDrained at h
  split at h
  next hempty => exact .inr (by simpa using (Bool.and_eq_true_iff.mp hempty).2)
  next => exact .inl h

/-- If finishing a task adds a note, it was the last. -/
theorem lt_finish {worker : Bool} (h : since < (p.finish worker).drains) :
    since < p.drains ∨ (p.finish worker).tracked = 0 := by
  rw [finish_tracked]
  exact lt_note_drained h

/-- If watching adds a note, the pool was empty. -/
theorem lt_watch (h : since < p.watch.drains) : since < p.drains ∨ p.tracked = 0 := by
  unfold watch at h
  split at h
  · exact .inl h
  · exact lt_note_drained (p := { p with isWatched := true }) h

/-- Whoever has waited for the pool to be empty finds it empty, or a note was added meanwhile. -/
theorem empty_of_has_drained (h : p.hasDrained since = true) :
    since < p.drains ∨ p.tracked = 0 := by
  rcases Bool.or_eq_true_iff.mp h with hempty | hnoted
  · exact .inr (by simpa using (Bool.and_eq_true_iff.mp hempty).2)
  · exact .inl (of_decide_eq_true hnoted)

end BulkLoad.WorkerPool
