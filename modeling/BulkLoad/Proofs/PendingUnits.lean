import BulkLoad.PendingUnits
import BulkLoad.Proofs.Steps
import Mathlib.Data.List.Nodup
import Mathlib.Data.Nat.Pairing

/-!
# Waiting until no units are outstanding

Units are acquired and released while calls wait for them, in any order. `Moved` lists what a move
can do; read `step_eq_some_iff` first. What the count shows is compared with the history: the units
that were acquired and not released since are `outstanding` (`recorded_of_run`), and a call returns
only at a look that finds none of them (`found_none_of_returned`).

A call looks again only after the count has changed, so it must never sleep on a count of zero. That
is what `Alert` says: a call that sleeps remembers an earlier version of the count, or the present
one with units outstanding. Once no unit is outstanding and none is acquired, every call can
therefore look and then returns (`Alert.turn`), however often the count changed while the call
slept. If those that can look get their turns, all of them return (`Course.returns`).
`counts_of_run` puts all of this together.
-/

namespace BulkLoad.PendingUnits

variable {u : PendingUnits} {seen : Nat}

/-- A call that looks is through just if no unit is outstanding. -/
theorem look_eq_returned_iff : u.look = .returned ↔ u.count = 0 := by
  simp [look]

/-- A call that is not through remembers the version it has seen. -/
theorem look_eq_blocked_iff : u.look = .blocked seen ↔ 0 < u.count ∧ u.version = seen := by
  by_cases hcount : u.count = 0 <;> simp [look, hcount, Nat.pos_iff_ne_zero]

end BulkLoad.PendingUnits

namespace BulkLoad.Barrier

open PendingUnits (look_eq_returned_iff look_eq_blocked_iff)

section

variable {b next final : Barrier} {move : Move} {moves later : List Move} {unit w : Nat}
  {waiter : PendingUnits.Waiter}

/-! ## What a move can do -/

/-- What a move leads to. -/
inductive Moved (b : Barrier) : Move → Barrier → Prop where
  | acquired : Moved b .acquire b.acquire
  | released (unit : Nat) (hheld : unit ∈ b.held) :
      Moved b (.release unit) { b with units := b.units.release, held := b.held.erase unit }
  | called : Moved b .wait b.wait
  | looked (w : Nat) (waiter : PendingUnits.Waiter) (hw : b.waiters[w]? = some waiter)
      (hawake : waiter.isAwake b.units = true) :
      Moved b (.look w) { b with waiters := b.waiters.set w b.units.look }

/-- A move is possible just if it is one of these. -/
theorem step_eq_some_iff : b.step move = some next ↔ Moved b move next := by
  constructor
  · intro h
    cases move with
    | acquire =>
        cases h
        exact .acquired
    | release unit =>
        simp only [step, release?, List.contains_iff_mem, Option.ite_none_right_eq_some] at h
        cases h.2
        exact .released unit h.1
    | wait =>
        cases h
        exact .called
    | look w =>
        simp only [step, look?] at h
        split at h
        · cases h
        · simp only [Option.ite_none_right_eq_some] at h
          cases h.2
          exact .looked w _ ‹_› h.1
  · intro h
    cases h with
    | acquired | called => rfl
    | released unit hheld =>
        simp only [step, release?, List.contains_iff_mem, hheld, if_true]
    | looked w waiter hw hawake => simp only [step, look?, hw, hawake, if_true]

/-! ## The units that are outstanding -/

/-- The units that have been acquired and not been released since, in the order of their numbers. -/
def outstanding (moves : List Move) : List Nat :=
  (List.range (moves.count .acquire)).filter fun unit => .release unit ∉ moves

/-- A unit is outstanding from the move that acquires it to the one that releases it. -/
theorem mem_outstanding_iff :
    unit ∈ outstanding moves ↔ unit < moves.count .acquire ∧ .release unit ∉ moves := by
  simp [outstanding]

/-- A barrier holds the units that are outstanding after the moves that led to it, and its calls are
as many as were made. -/
structure Recorded (moves : List Move) (b : Barrier) : Prop where
  count : b.units.count = b.held.length
  held : b.held = outstanding moves
  next : b.next = moves.count .acquire
  released : ∀ unit, .release unit ∈ moves → unit < moves.count .acquire
  waiters : b.waiters.length = moves.count .wait

/-- A move that neither acquires nor releases a unit leaves the same ones outstanding. -/
theorem Recorded.concat (hb : Recorded moves b) (hacquire : move ≠ .acquire)
    (hrelease : ∀ unit, move ≠ .release unit) (hunits : next.units = b.units)
    (hheld : next.held = b.held) (hnext : next.next = b.next)
    (hwaiters : next.waiters.length = (moves ++ [move]).count .wait) :
    Recorded (moves ++ [move]) next := by
  have hcount : (moves ++ [move]).count .acquire = moves.count .acquire := by
    simp [hacquire]
  have hreleased : ∀ unit, .release unit ∈ moves ++ [move] ↔ .release unit ∈ moves := by
    intro unit
    simp [Ne.symm (hrelease unit)]
  refine ⟨?_, ?_, ?_, ?_, hwaiters⟩
  · rw [hunits, hheld, hb.count]
  · simp only [outstanding, hcount, hreleased]
    exact hheld.trans hb.held
  · rw [hnext, hcount, hb.next]
  · intro unit hunit
    rw [hcount]
    exact hb.released unit ((hreleased unit).mp hunit)

/-- A unit that is acquired comes after those that are outstanding. -/
theorem Recorded.outstanding_acquire (h : Recorded moves b) :
    outstanding (moves ++ [.acquire]) = b.held ++ [b.next] := by
  have hfresh : .release (moves.count .acquire) ∉ moves := fun hmem =>
    Nat.lt_irrefl _ (h.released _ hmem)
  simp [outstanding, h.held, h.next, List.range_succ, hfresh]

/-- A unit that is released is no longer outstanding. -/
theorem Recorded.outstanding_release (h : Recorded moves b) :
    outstanding (moves ++ [.release unit]) = b.held.erase unit := by
  have hdistinct : (outstanding moves).Nodup := List.nodup_range.filter _
  rw [h.held, hdistinct.erase_eq_filter, outstanding, outstanding, List.filter_filter]
  have hcount : (moves ++ [Move.release unit]).count .acquire = moves.count .acquire := by simp
  rw [hcount]
  refine List.filter_congr fun other _ => ?_
  rw [Bool.eq_iff_iff]
  simp [and_comm]

/-- A move keeps a barrier in step with the moves that led to it. -/
theorem recorded_of_moved (hb : Recorded moves b) (h : Moved b move next) :
    Recorded (moves ++ [move]) next := by
  cases h with
  | acquired =>
      refine ⟨?_, hb.outstanding_acquire.symm, ?_, ?_, ?_⟩
      · simp [acquire, PendingUnits.acquire, hb.count]
      · simp [acquire, hb.next]
      · intro unit hunit
        have hlt := hb.released unit (by simpa using hunit)
        simp only [List.count_append, List.count_singleton_self]
        omega
      · simp [acquire, hb.waiters]
  | released unit hheld =>
      have hlength := List.length_erase_of_mem hheld
      refine ⟨?_, hb.outstanding_release.symm, ?_, ?_, ?_⟩
      · simp [PendingUnits.release, hb.count, hlength]
      · simp [hb.next]
      · intro other hother
        simp only [List.mem_append, List.mem_singleton, Move.release.injEq] at hother
        rcases hother with hearlier | rfl
        · simpa using hb.released other hearlier
        · rw [hb.held, mem_outstanding_iff] at hheld
          simpa using hheld.1
      · simp [hb.waiters]
  | called => exact hb.concat nofun nofun rfl rfl rfl (by simp [wait, hb.waiters])
  | looked => exact hb.concat nofun nofun rfl rfl rfl (by simp [hb.waiters])

/-- Every run leads to a barrier that is in step with its moves. -/
theorem recorded_of_run (h : ({} : Barrier).run moves = some b) : Recorded moves b :=
  Steps.holds (p := Recorded) ⟨rfl, rfl, rfl, nofun, rfl⟩
    (fun _ hb hstep => recorded_of_moved hb (step_eq_some_iff.mp hstep)) h

/-- A unit that is outstanding can be released, and no other can. -/
theorem Recorded.can_release_iff (h : Recorded moves b) :
    unit ∈ outstanding moves ↔ ∃ next, b.step (.release unit) = some next := by
  rw [← h.held]
  constructor
  · exact fun hheld => ⟨_, step_eq_some_iff.mpr (.released unit hheld)⟩
  · rintro ⟨next, hnext⟩
    cases step_eq_some_iff.mp hnext with
    | released _ hheld => exact hheld

/-- The count is not zero when a unit is released. -/
theorem Recorded.count_release (h : Recorded moves b)
    (hnext : b.step (.release unit) = some next) : next.units.count + 1 = b.units.count := by
  cases step_eq_some_iff.mp hnext with
  | released _ hheld =>
      have hpos : 0 < b.units.count := h.count ▸ List.length_pos_of_mem hheld
      exact Nat.sub_add_cancel hpos

/-! ## Calls that have returned -/

/-- The call with number `w` was made and has looked since, and no unit was outstanding then. -/
def FoundNone (moves : List Move) (w : Nat) : Prop :=
  ∃ before during after found, moves = before ++ .wait :: (during ++ .look w :: after) ∧
    before.count .wait = w ∧ ({} : Barrier).run (before ++ .wait :: during) = some found ∧
    found.units.count = 0

/-- That stays so whatever happens next. -/
theorem FoundNone.concat (h : FoundNone moves w) (move : Move) : FoundNone (moves ++ [move]) w := by
  obtain ⟨before, during, after, found, rfl, hfound⟩ := h
  exact ⟨before, during, after ++ [move], found, by simp, hfound⟩

/-- The call with number `w` was made after `w` others. -/
theorem exists_call (h : w < moves.count .wait) :
    ∃ before during, moves = before ++ .wait :: during ∧ before.count .wait = w := by
  induction moves using List.reverseRecOn with
  | nil => cases h
  | append_singleton moves move ih =>
      by_cases hearlier : w < moves.count .wait
      · obtain ⟨before, during, rfl, hcount⟩ := ih hearlier
        exact ⟨before, during ++ [move], by simp, hcount⟩
      · rw [List.count_append, List.count_singleton] at h
        split at h
        · rename_i hmove
          obtain rfl : move = .wait := by simpa using hmove
          exact ⟨moves, [], rfl, by omega⟩
        · omega

/-- A call that has returned after a move had returned before, or looked then and found none. -/
theorem returned_of_moved (h : Moved b move next) (hw : next.waiters[w]? = some .returned) :
    b.waiters[w]? = some .returned ∨
      move = .look w ∧ w < b.waiters.length ∧ b.units.count = 0 := by
  cases h with
  | acquired | released => exact .inl hw
  | called =>
      have hw : (b.waiters ++ [.called])[w]? = some .returned := hw
      rw [List.getElem?_append] at hw
      split at hw
      · exact .inl hw
      · cases hw' : w - b.waiters.length <;> simp [hw'] at hw
  | looked v waiter hv hawake =>
      by_cases hwv : w = v
      · subst hwv
        have hlt := (List.getElem?_eq_some_iff.mp hv).1
        rw [List.getElem?_set_self hlt, Option.some.injEq, look_eq_returned_iff] at hw
        exact .inr ⟨rfl, hlt, hw⟩
      · rw [List.getElem?_set_ne (Ne.symm hwv)] at hw
        exact .inl hw

/-- Every call that has returned found no unit outstanding when it looked. -/
theorem found_none_of_returned (h : ({} : Barrier).run moves = some b) :
    ∀ w, b.waiters[w]? = some .returned → FoundNone moves w := by
  refine Steps.holds (p := fun moves b => ∀ w, b.waiters[w]? = some .returned → FoundNone moves w)
    (fun _ hw => by simp at hw) ?_ h
  intro moves b next move hrun hb hstep w hw
  rcases returned_of_moved (step_eq_some_iff.mp hstep) hw with hearlier | ⟨rfl, hlt, hnone⟩
  · exact (hb w hearlier).concat move
  · rw [(recorded_of_run hrun).waiters] at hlt
    obtain ⟨before, during, rfl, hcount⟩ := exists_call hlt
    exact ⟨before, during, [], b, by simp, hcount, hrun, hnone⟩

/-! ## Calls that are blocked -/

/-- A blocked call remembers an earlier version of the count, or the present one with units
outstanding. -/
def Alert (b : Barrier) : Prop :=
  ∀ seen, .blocked seen ∈ b.waiters →
    seen < b.units.version ∨ seen = b.units.version ∧ 0 < b.units.count

/-- A move keeps it so: nobody remembers the version of a count that has just changed. -/
theorem Alert.moved (hb : b.Alert) (h : Moved b move next) : next.Alert := by
  intro seen hseen
  cases h with
  | acquired | released =>
      rcases hb seen hseen with hlt | ⟨rfl, -⟩
      · exact .inl (Nat.lt_succ_of_lt hlt)
      · exact .inl (Nat.lt_succ_self _)
  | called => exact hb seen (by simpa [wait] using hseen)
  | looked w waiter hw hawake =>
      rcases List.mem_or_eq_of_mem_set hseen with hstays | hlooks
      · exact hb seen hstays
      · obtain ⟨hpos, hversion⟩ := look_eq_blocked_iff.mp hlooks.symm
        exact .inr ⟨hversion.symm, hpos⟩

/-- A run keeps it so too. -/
theorem Alert.after_run (hb : b.Alert) (h : b.run later = some final) : final.Alert :=
  Steps.keeps (fun _ hb hstep => hb.moved (step_eq_some_iff.mp hstep)) hb h

/-- Nobody is blocked at first. -/
theorem alert_of_run (h : ({} : Barrier).run moves = some b) : b.Alert :=
  Alert.after_run (fun _ hseen => absurd hseen List.not_mem_nil) h

/-- If no unit is outstanding, a call that has not returned is awake. -/
theorem Alert.awake (hb : b.Alert) (hnone : b.units.count = 0) (hw : waiter ∈ b.waiters)
    (hwaits : waiter ≠ .returned) : waiter.isAwake b.units = true := by
  cases waiter with
  | called => rfl
  | returned => exact absurd rfl hwaits
  | blocked seen =>
      refine bne_iff_ne.mpr ?_
      rcases hb seen hw with hlt | ⟨-, hpos⟩
      · exact Nat.ne_of_lt hlt
      · exact absurd hnone (Nat.ne_of_gt hpos)

/-- If no unit is outstanding, a call that has not returned can look, and then it has returned. -/
theorem Alert.turn (hb : b.Alert) (hnone : b.units.count = 0) (hw : b.waiters[w]? = some waiter)
    (hwaits : waiter ≠ .returned) :
    ∃ next, b.step (.look w) = some next ∧ next.waiters[w]? = some .returned := by
  have hawake := hb.awake hnone (List.mem_of_getElem? hw) hwaits
  refine ⟨_, step_eq_some_iff.mpr (.looked w waiter hw hawake), ?_⟩
  rw [List.getElem?_set_self (List.getElem?_eq_some_iff.mp hw).1, look_eq_returned_iff.mpr hnone]

/-- Without acquisitions none comes to be outstanding. -/
theorem count_of_run (h : b.run later = some final) (hlater : .acquire ∉ later)
    (hnone : b.units.count = 0) : final.units.count = 0 := by
  refine Steps.keeps (p := fun b => b.units.count = 0) (fun hmem hnone hstep => ?_) hnone h
  cases step_eq_some_iff.mp hstep with
  | acquired => exact absurd hmem hlater
  | released => exact Nat.sub_eq_zero_of_le (hnone ▸ Nat.zero_le 1)
  | called | looked => exact hnone

/-- No call gets lost. -/
theorem length_of_moved (h : Moved b move next) : b.waiters.length ≤ next.waiters.length := by
  cases h with
  | acquired | released => exact Nat.le_refl _
  | called => simp [wait]
  | looked => simp

/-! ## Letting all calls look -/

/-- If no unit is outstanding, one round of looks is enough. -/
theorem Alert.returned_settle (hb : b.Alert) (hnone : b.units.count = 0) :
    b.settle.returned = b.waiters.length := by
  have hall : ∀ waiter ∈ b.settle.waiters, .returned = waiter := by
    intro waiter hwaiter
    obtain ⟨before, hbefore, rfl⟩ := List.mem_map.mp hwaiter
    by_cases hreturned : before = .returned
    · subst hreturned
      rfl
    · rw [if_pos (hb.awake hnone hbefore hreturned), look_eq_returned_iff.mpr hnone]
  have hlength : b.settle.waiters.length = b.waiters.length := List.length_map _
  rw [returned, List.count_eq_length.mpr hall, hlength]

/-- The calls that have not looked yet can do so one after the other. -/
theorem exists_looks (b : Barrier) (done waiting : List PendingUnits.Waiter) :
    ∃ looks, (∀ move ∈ looks, ∃ w, move = .look w) ∧
      { b with waiters := done ++ waiting }.run looks = some { b with
        waiters := done ++ waiting.map fun w => if w.isAwake b.units then b.units.look else w } := by
  induction waiting generalizing done with
  | nil => exact ⟨[], nofun, rfl⟩
  | cons waiter waiting ih =>
      cases hawake : waiter.isAwake b.units with
      | false =>
          obtain ⟨looks, hlooks, hrun⟩ := ih (done ++ [waiter])
          refine ⟨looks, hlooks, ?_⟩
          simpa [hawake] using hrun
      | true =>
          obtain ⟨looks, hlooks, hrun⟩ := ih (done ++ [b.units.look])
          refine ⟨.look done.length :: looks, ?_, ?_⟩
          · rintro move (_ | ⟨_, hmove⟩)
            · exact ⟨_, rfl⟩
            · exact hlooks move hmove
          · have hfirst : (done ++ waiter :: waiting)[done.length]? = some waiter := by simp
            have hlook := step_eq_some_iff.mpr
              (Moved.looked (b := { b with waiters := done ++ waiter :: waiting }) done.length waiter
                hfirst hawake)
            refine Option.bind_eq_some_iff.mpr ⟨_, hlook, ?_⟩
            simpa [run, hawake] using hrun

/-- Such a round is made of looks. -/
theorem exists_looks_settle (b : Barrier) :
    ∃ looks, (∀ move ∈ looks, ∃ w, move = .look w) ∧ b.run looks = some b.settle :=
  exists_looks b [] b.waiters

/-! ## Endless courses -/

/-- An endless course of a barrier. At each moment it makes a move or stays as it is. -/
structure Course (b : Barrier) where
  state : Nat → Barrier
  move : Nat → Option Move
  first : state 0 = b
  follows : ∀ n, (move n).elim (some (state n)) (state n).step = some (state (n + 1))

/-- A call that can look from some moment on looks some time. -/
def Course.Fair (course : Course b) : Prop :=
  ∀ w n, (∀ m, n ≤ m → ∃ next, (course.state m).step (.look w) = some next) →
    ∃ m, n ≤ m ∧ course.move m = some (.look w)

/-- A course has come to each of its states by a run. -/
theorem Course.reached (course : Course b) (n : Nat) :
    b.run ((List.range n).filterMap course.move) = some (course.state n) := by
  induction n with
  | zero => exact congrArg some course.first.symm
  | succ n ih =>
      have hfollows := course.follows n
      rw [List.range_succ, List.filterMap_append]
      cases hmove : course.move n with
      | none =>
          rw [hmove] at hfollows
          rw [List.filterMap_cons_none hmove, List.filterMap_nil, List.append_nil, ih]
          exact hfollows
      | some move =>
          rw [hmove] at hfollows
          rw [List.filterMap_cons_some hmove, List.filterMap_nil]
          exact Steps.concat_iff.mpr ⟨_, ih, hfollows⟩

/-- A call that was made is there at every later moment. -/
theorem Course.lt_length (course : Course b) {n m : Nat} (hnm : n ≤ m)
    (hw : w < (course.state n).waiters.length) : w < (course.state m).waiters.length := by
  induction m, hnm using Nat.le_induction with
  | base => exact hw
  | succ m hnm ih =>
      have hfollows := course.follows m
      cases hmove : course.move m with
      | none =>
          rw [hmove] at hfollows
          exact Option.some.inj hfollows ▸ ih
      | some move =>
          rw [hmove] at hfollows
          exact Nat.lt_of_lt_of_le ih (length_of_moved (step_eq_some_iff.mp hfollows))

/-- If no unit is outstanding at first and none is acquired, every call returns in a fair course. -/
theorem Course.returns (course : Course b) (hb : b.Alert) (hnone : b.units.count = 0)
    (hmoves : ∀ n, course.move n ≠ some .acquire) (hfair : course.Fair) (n w : Nat)
    (hw : w < (course.state n).waiters.length) :
    ∃ m, n ≤ m ∧ (course.state m).waiters[w]? = some .returned := by
  by_contra hnever
  -- As long as the call has not returned it can look, and then it returns.
  have hcan : ∀ m, n ≤ m → ∃ next, (course.state m).step (.look w) = some next ∧
      next.waiters[w]? = some .returned := by
    intro m hm
    have hwaiter := List.getElem?_eq_getElem (course.lt_length hm hw)
    have hlater : .acquire ∉ (List.range m).filterMap course.move := by
      simpa [List.mem_filterMap] using fun k _ => hmoves k
    have hstill := count_of_run (course.reached m) hlater hnone
    refine (hb.after_run (course.reached m)).turn hstill hwaiter fun hreturned => ?_
    exact hnever ⟨m, hm, hreturned ▸ hwaiter⟩
  obtain ⟨m, hm, hmove⟩ := hfair w n fun m hm => (hcan m hm).imp fun _ => And.left
  obtain ⟨next, hnext, hreturned⟩ := hcan m hm
  have hfollows := course.follows m
  rw [hmove] at hfollows
  obtain rfl := Option.some.inj (hnext.symm.trans hfollows)
  exact hnever ⟨m + 1, Nat.le_succ_of_le hm, hreturned⟩

/-- The barrier after `n` turns. Each call gets its turn again and again, and looks if it can. -/
def afterTurns (b : Barrier) : Nat → Barrier
  | 0 => b
  | n + 1 => ((b.afterTurns n).look? n.unpair.1).getD (b.afterTurns n)

/-- The course in which nothing but that happens. -/
def inTurn (b : Barrier) : Course b where
  state := b.afterTurns
  move n := ((b.afterTurns n).look? n.unpair.1).map fun _ => .look n.unpair.1
  first := rfl
  follows n := by
    cases hlook : (b.afterTurns n).look? n.unpair.1 with
    | none => simp [afterTurns, hlook]
    | some next => simp [afterTurns, hlook, step]

/-- It is fair. -/
theorem fair_in_turn (b : Barrier) : b.inTurn.Fair := by
  intro w n hcan
  have hle : n ≤ Nat.pair w n := Nat.right_le_pair w n
  obtain ⟨next, hnext⟩ := hcan _ hle
  have hlook : (b.afterTurns (Nat.pair w n)).look? w = some next := hnext
  refine ⟨_, hle, ?_⟩
  simp [inTurn, hlook]

/-- Nothing is acquired in it. -/
theorem in_turn_ne_acquire (b : Barrier) (n : Nat) : b.inTurn.move n ≠ some .acquire := by
  simp [inTurn]

/-! ## The whole of it -/

/-- What a barrier that `moves` led to makes of its units and of the calls that wait for them. -/
structure Counts (moves : List Move) (b : Barrier) : Prop where
  /-- The count is the number of units that have been acquired and not been released since. -/
  pending : b.units.count = (outstanding moves).length
  /-- Each of these units can be released, and no other can. -/
  releasable : ∀ unit, unit ∈ outstanding moves ↔ ∃ next, b.step (.release unit) = some next
  /-- The count is not zero then, and falls by one. -/
  falls : ∀ unit next, b.step (.release unit) = some next → next.units.count + 1 = b.units.count
  /-- A call that has returned looked after it was made, and found no unit outstanding. -/
  returned : ∀ w, b.waiters[w]? = some .returned → FoundNone moves w
  /-- If no unit is outstanding and none is acquired later, then whatever else happens, a call has
  returned, or can look and has returned then. -/
  unblocked : b.units.count = 0 → ∀ later final, b.run later = some final → .acquire ∉ later →
    ∀ w waiter, final.waiters[w]? = some waiter → waiter = .returned ∨
      ∃ next, final.step (.look w) = some next ∧ next.waiters[w]? = some .returned
  /-- If no unit is outstanding, nothing but looks is needed for all calls to return. -/
  settles : b.units.count = 0 → ∃ looks, (∀ move ∈ looks, ∃ w, move = .look w) ∧
    b.run looks = some b.settle ∧ b.settle.returned = b.waiters.length
  /-- If no unit is outstanding and none is acquired later, all calls, those to come included,
  return some time in every course that lets those look that can. -/
  returns : b.units.count = 0 → ∀ course : Course b, course.Fair →
    (∀ n, course.move n ≠ some .acquire) → ∀ n w, w < (course.state n).waiters.length →
      ∃ m, n ≤ m ∧ (course.state m).waiters[w]? = some .returned

/-- Every run leads to a barrier that does so. -/
theorem counts_of_run (h : ({} : Barrier).run moves = some b) : Counts moves b := by
  have hrecorded := recorded_of_run h
  have halert := alert_of_run h
  refine ⟨?_, fun _ => hrecorded.can_release_iff, fun _ _ => hrecorded.count_release,
    found_none_of_returned h, ?_, ?_, ?_⟩
  · rw [hrecorded.count, hrecorded.held]
  · intro hnone later final hrun hlater w waiter hw
    by_cases hwaits : waiter = .returned
    · exact .inl hwaits
    · have hstill := count_of_run hrun hlater hnone
      exact .inr ((halert.after_run hrun).turn hstill hw hwaits)
  · intro hnone
    obtain ⟨looks, hlooks, hrun⟩ := exists_looks_settle b
    exact ⟨looks, hlooks, hrun, halert.returned_settle hnone⟩
  · intro hnone course hfair hmoves
    exact course.returns halert hnone hmoves hfair

end

/-! ## Units that come and go while a call sleeps -/

namespace Sample

/-- A call has seen a unit outstanding. That one is released, another one is acquired and released,
and another call is made and returns, all while the first one sleeps. -/
def moves : List Move := [
  .acquire, .acquire, .wait, .look 0, .release 0, .acquire, .release 1, .look 0, .release 2,
  .acquire, .release 3, .wait, .look 1]

/-- The barrier at the end. -/
def final : Barrier := (({} : Barrier).run moves).getD {}

end Sample

/-- The call that sleeps wakes up to no unit and returns. -/
theorem counts_of_sample :
    ({} : Barrier).run Sample.moves = some Sample.final ∧ Counts Sample.moves Sample.final ∧
      Sample.final.units.count = 0 ∧ Sample.final.waiters = [.blocked 5, .returned] ∧
      ∃ m, (Sample.final.inTurn.state m).waiters[0]? = some .returned := by
  have hrun : ({} : Barrier).run Sample.moves = some Sample.final := by decide
  have hcounts := counts_of_run hrun
  have hnone : Sample.final.units.count = 0 := by decide
  obtain ⟨m, -, hreturned⟩ := hcounts.returns hnone Sample.final.inTurn (fair_in_turn _)
    (in_turn_ne_acquire _) 0 0 (by decide)
  exact ⟨hrun, hcounts, hnone, by decide, m, hreturned⟩

end BulkLoad.Barrier
