/-!
# Taking turns

Actors that share a state are given turns one after the other. An actor goes on until it is blocked
or gives way. Actors that can go on wait in a queue for their turns; those that become able to do so
join it at its end.
-/

namespace BulkLoad.Rehearsal

/-- Actors on a shared state. `present` lists them, and `turn` is one stretch of an actor: none if
it is blocked, and otherwise the state after it and whether the actor gives way. -/
structure Actors (σ α : Type) where
  present : σ → List α
  turn : σ → α → Option (σ × Bool)

namespace Actors

variable {σ α : Type} [BEq α]

/-- Let an actor go on until it is blocked or gives way, for at most `fuel` stretches. -/
def goOn (actors : Actors σ α) (a : α) : (fuel : Nat) → σ → σ
  | 0, state => state
  | fuel + 1, state =>
      match actors.turn state a with
      | none => state
      | some (state, true) => state
      | some (state, false) => actors.goOn a fuel state

/-- Let those actors join the queue that can go on and are not in it. -/
def join (actors : Actors σ α) (state : σ) (queue : List α) : List α :=
  queue ++ (actors.present state).filter fun a =>
    !queue.contains a && (actors.turn state a).isSome

/-- Give turns until every actor is blocked, but at most `fuel` turns. -/
def settle (actors : Actors σ α) : (fuel : Nat) → List α → σ → σ
  | 0, _, state => state
  | fuel + 1, queue, state =>
      match actors.join state queue with
      | [] => state
      | a :: rest => actors.settle fuel rest (actors.goOn a fuel state)

end Actors

end BulkLoad.Rehearsal
