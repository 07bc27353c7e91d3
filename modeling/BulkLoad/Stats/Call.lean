import BulkLoad.Stats

/-!
# Calls on shared counters

Whoever counts something makes a `Call`. The counters are shared by all callers and serve one call
at a time. A call that breaks off does not keep others from calling: they find the counters as it
has left them.
-/

namespace BulkLoad.Stats

/-- A call that counts something. -/
inductive Call where
  | init (now : Nat)
  | addTotal (units : Nat)
  | failed (units records : Nat)
  | succeeded (units records : Nat)
  | requestFailed (records : Nat)
  | requestSucceeded (records : Nat) (latency respTime : Duration)
deriving DecidableEq

/-- Serve a call. -/
def Call.serve (s : Stats) : Call → Update
  | init now => .complete (s.init now)
  | addTotal units => .complete (s.addTotal units)
  | failed units records => .complete (s.failed units records)
  | succeeded units records => .complete (s.succeeded units records)
  | requestFailed records => .complete (s.requestFailed records)
  | requestSucceeded records latency respTime => s.requestSucceeded records latency respTime

/-- Whether the update went through. -/
def Update.returned : Update → Bool
  | complete _ => true
  | overflowed _ => false

/-- A call that was served: the counters that it found, and what came of it. -/
structure Entry where
  call : Call
  found : Stats
  update : Update
deriving DecidableEq

/-- Serve calls one after the other. -/
def journal (s : Stats) : List Call → List Entry
  | [] => []
  | call :: later => ⟨call, s, call.serve s⟩ :: journal (call.serve s).stats later

/-- The counters after calls that were served one after the other. -/
def after (s : Stats) : List Call → Stats
  | [] => s
  | call :: later => after (call.serve s).stats later

end BulkLoad.Stats
