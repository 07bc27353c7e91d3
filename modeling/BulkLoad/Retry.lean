import BulkLoad.Duration

/-!
# Repeating an operation that fails

A `RetryPolicy` says how often an operation is tried and how long to wait in between. `verdict` is
the decision after one failed attempt; `run` applies it to an operation until it succeeds, fails for
good, or has used up its attempts.
-/

namespace BulkLoad

/-- How often an operation is tried, and the bounds of the waits in between. -/
structure RetryPolicy where
  maxAttempts : Nat
  baseDelay : Duration
  maxDelay : Duration
deriving DecidableEq

/-- Whether an error may go away when the operation is tried again. -/
inductive Disposition where
  | retry
  | stop
deriving DecidableEq

/-- How an operation failed for good: with an error that trying again does not mend, or after as
many attempts as the policy allows. -/
inductive RetryError (ε : Type) where
  | fatal (error : ε)
  | attemptsExceeded (attempts : Nat) (last : ε)
deriving DecidableEq

/-- What follows a failed attempt. -/
inductive Verdict (ε : Type) where
  | giveUp (error : RetryError ε)
  | again (delay : Duration)

namespace RetryPolicy

/-- A policy of at least one attempt. Without a longest delay, the base delay is the longest. -/
def of (maxAttempts : Nat) (baseDelay maxDelay : Duration) : RetryPolicy where
  maxAttempts := max maxAttempts 1
  baseDelay := baseDelay
  maxDelay := if maxDelay.isZero then baseDelay else maxDelay

/-- The policy for statements: five attempts, half a second doubling up to ten seconds. -/
def forStatements : RetryPolicy := of 5 (Duration.ofMillis 500) (Duration.ofSecs 10)

/-- A single attempt. -/
def once : RetryPolicy := of 1 Duration.zero Duration.zero

instance : Inhabited RetryPolicy := ⟨forStatements⟩

/-- The wait after the attempt with this number, counted from zero: the base delay doubled at every
attempt up to the sixth, no longer than the longest delay, in milliseconds of 64 bits. -/
def backoffDelay (policy : RetryPolicy) (attempt : Nat) : Duration :=
  if policy.baseDelay.isZero then Duration.zero
  else
    let doubled :=
      min (policy.baseDelay.millis * Nat.pow 2 (min attempt 6))
        340282366920938463463374607431768211455
    Duration.ofMillis (min doubled policy.maxDelay.millis % 18446744073709551616)

/-- The decision after the attempt with this number, counted from zero, failed with an error. -/
def verdict {ε : Type} (policy : RetryPolicy) (classify : ε → Disposition) (attempt : Nat)
    (error : ε) : Verdict ε :=
  match classify error with
  | .stop => .giveUp (.fatal error)
  | .retry =>
      if policy.maxAttempts ≤ attempt + 1 then .giveUp (.attemptsExceeded (attempt + 1) error)
      else .again (policy.backoffDelay attempt)

/-- What happens while an operation is run: it is called and answers, or a delay is slept. -/
inductive Event (ε α : Type) where
  | call (answer : Except ε α)
  | sleep (delay : Duration)

/-- The answer to a call. -/
def Event.answer? {ε α : Type} : Event ε α → Option (Except ε α)
  | call answer => some answer
  | sleep _ => none

/-- The delay that is slept. -/
def Event.delay? {ε α : Type} : Event ε α → Option Duration
  | call _ => none
  | sleep delay => some delay

/-- How running an operation ended, what happened until then, and the world after the last call. -/
structure Run (σ ε α : Type) where
  result : Except (RetryError ε) α
  events : List (Event ε α)
  world : σ

/-- How often the operation was called. -/
def Run.calls {σ ε α : Type} (run : Run σ ε α) : Nat := (run.events.filterMap Event.answer?).length

/-- The delays that were slept. -/
def Run.slept {σ ε α : Type} (run : Run σ ε α) : List Duration := run.events.filterMap Event.delay?

/-- The run before which a call failed with an error and a delay was slept. -/
def Run.after {σ ε α : Type} (run : Run σ ε α) (error : ε) (delay : Duration) : Run σ ε α :=
  { run with events := .call (.error error) :: .sleep delay :: run.events }

@[simp]
theorem Run.calls_after {σ ε α : Type} (run : Run σ ε α) (error : ε) (delay : Duration) :
    (run.after error delay).calls = run.calls + 1 := rfl

/-- Call an operation again and again, from the attempt with this number. `remaining` bounds the
attempts that are left; when it is used up the operation counts as given up. -/
def runFrom {σ ε α : Type} (policy : RetryPolicy) (classify : ε → Disposition)
    (operation : σ → Except ε α × σ) (attempt : Nat) : (remaining : Nat) → σ → Run σ ε α
  | remaining, world =>
      match operation world with
      | (.ok value, world) => ⟨.ok value, [.call (.ok value)], world⟩
      | (.error error, world) =>
          match policy.verdict classify attempt error, remaining with
          | .giveUp failure, _ => ⟨.error failure, [.call (.error error)], world⟩
          | .again _, 0 =>
              ⟨.error (.attemptsExceeded (attempt + 1) error), [.call (.error error)], world⟩
          | .again delay, remaining + 1 =>
              (runFrom policy classify operation (attempt + 1) remaining world).after error delay

/-- Call an operation until it succeeds, fails for good, or has used up the attempts of the policy.
The operation acts on a world that it passes on. -/
def run {σ ε α : Type} (policy : RetryPolicy) (classify : ε → Disposition)
    (operation : σ → Except ε α × σ) (world : σ) : Run σ ε α :=
  runFrom policy classify operation 0 policy.maxAttempts world

end RetryPolicy

end BulkLoad
