/-!
# Units of outstanding work

`PendingUnits` counts units of work that have been acquired and not yet been released. A waiter that
finds units outstanding looks again after the count has changed, and is through as soon as it finds
none. What happens between two of its looks it does not see.
-/

namespace BulkLoad

/-- The number of outstanding units, and how often it has changed. -/
structure PendingUnits where
  count : Nat := 0
  version : Nat := 0
deriving DecidableEq

namespace PendingUnits

/-- Take a unit. -/
def acquire (u : PendingUnits) : PendingUnits := ⟨u.count + 1, u.version + 1⟩

/-- Give a unit back. -/
def release (u : PendingUnits) : PendingUnits := ⟨u.count - 1, u.version + 1⟩

/-- A call that waits until no units are outstanding. It has not looked yet, has seen units in a
version of the count, or has returned. -/
inductive Waiter where
  | called
  | blocked (seen : Nat)
  | returned
deriving DecidableEq

/-- Whether a waiter is woken up: it has not looked yet, or the count has changed since it did. -/
def Waiter.isAwake (u : PendingUnits) : Waiter → Bool
  | called => true
  | blocked seen => seen != u.version
  | returned => false

/-- A waiter looks at the count. -/
def look (u : PendingUnits) : Waiter := if u.count == 0 then .returned else .blocked u.version

end PendingUnits

/-- Units with the numbers of those that are held, the number of the next one, and the waiters. -/
structure Barrier where
  units : PendingUnits := {}
  held : List Nat := []
  next : Nat := 0
  waiters : List PendingUnits.Waiter := []
deriving DecidableEq

namespace Barrier

/-- What can happen at a barrier. -/
inductive Move where
  | acquire
  | release (unit : Nat)
  | wait
  | look (waiter : Nat)
deriving DecidableEq

/-- Take the unit with the next number. -/
def acquire (b : Barrier) : Barrier :=
  { b with units := b.units.acquire, held := b.held ++ [b.next], next := b.next + 1 }

/-- Give back a unit that is held. -/
def release? (b : Barrier) (unit : Nat) : Option Barrier :=
  if b.held.contains unit then
    some { b with units := b.units.release, held := b.held.erase unit }
  else none

/-- Begin to wait. -/
def wait (b : Barrier) : Barrier := { b with waiters := b.waiters ++ [.called] }

/-- A waiter that is awake looks at the count. -/
def look? (b : Barrier) (waiter : Nat) : Option Barrier :=
  match b.waiters[waiter]? with
  | none => none
  | some w =>
      if w.isAwake b.units then some { b with waiters := b.waiters.set waiter b.units.look }
      else none

/-- One move, if it is possible. -/
def step (b : Barrier) : Move → Option Barrier
  | .acquire => some b.acquire
  | .release unit => b.release? unit
  | .wait => some b.wait
  | .look waiter => b.look? waiter

/-- Several moves, if they are possible one after the other. -/
def run (b : Barrier) (moves : List Move) : Option Barrier := moves.foldlM step b

/-- Let every waiter that is awake look once. -/
def settle (b : Barrier) : Barrier :=
  { b with waiters := b.waiters.map fun w => if w.isAwake b.units then b.units.look else w }

/-- The number of waiters that have returned. -/
def returned (b : Barrier) : Nat := b.waiters.count .returned

end Barrier

end BulkLoad
