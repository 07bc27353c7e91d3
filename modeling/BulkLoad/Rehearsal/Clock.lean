import BulkLoad.Duration

/-!
# The clock of a rehearsal

Time passes only by sleeping. A sleeper wakes up in whole milliseconds, and after thirty years at
the latest, however long it meant to sleep.
-/

namespace BulkLoad.Rehearsal

/-- The longest sleep: thirty years of 365 days. -/
def longestSleep : Duration := Duration.ofSecs 946080000

/-- The time that a sleeper sleeps who means to sleep for the given time. -/
def sleepTime (meant : Duration) : Duration :=
  if meant.totalNanos ≤ longestSleep.totalNanos then meant else longestSleep

/-- The whole milliseconds after which a moment in nanoseconds has passed. -/
def millisAfter (nanos : Nat) : Nat := (nanos + 999999) / 1000000

/-- The milliseconds that pass over sleeps that are meant to take the given times. -/
def sleptMillis (meant : List Duration) : Nat :=
  meant.foldl (fun millis d => millis + millisAfter (sleepTime d).totalNanos) 0

end BulkLoad.Rehearsal
