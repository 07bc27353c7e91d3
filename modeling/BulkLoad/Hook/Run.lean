import BulkLoad.Answer
import BulkLoad.Hook
import BulkLoad.Log

/-!
# Running the hooks of a phase

The hooks of a phase run one after the other on one client, which is acquired first if there is any
statement to send and closed at the end whatever has happened. The first failure ends the phase. A
`HookRun` is what the phase waits for; each answer leads to the next wait or to the end, with the
events in between.
-/

namespace BulkLoad

/-- One thing that a hook does. -/
inductive HookAction where
  | send (statement : String)
  | pause (duration : Duration)
deriving DecidableEq

/-- What a hook does: it sends its statements and then pauses, each unless there is nothing to it.
-/
def Hook.actions (hook : Hook) : List HookAction :=
  hook.sent.map .send ++ if hook.wait.isZero then [] else [.pause hook.wait]

/-- Whether a client is needed. -/
def HookAction.isSend : HookAction → Bool
  | send _ => true
  | pause _ => false

/-- What happens while hooks run. -/
inductive HookEvent where
  | clientAsked
  | sent (statement : String)
  | answered (statement : String) (succeeded : Bool)
  | pausing (duration : Duration)
  | paused (duration : Duration)
  | clientClosing
  | logged (line : LogLine)
deriving DecidableEq

/-- What the hooks of a phase wait for, and what is left to be done after that: a client, the answer
to a statement, the end of a pause, or the end of the client. -/
inductive HookRun where
  | acquiring (rest : List HookAction)
  | sending (statement : String) (rest : List HookAction)
  | pausing (client : Bool) (duration : Duration) (rest : List HookAction)
  | closing (result : Except ManagerError Unit)

/-- Where the hooks of a phase have got to: they wait, or they have ended. -/
inductive HookProgress where
  | running (run : HookRun)
  | ended (result : Except ManagerError Unit)

namespace HookRun

/-- End the phase, after closing the client if there is one. -/
def finish (client : Bool) (result : Except ManagerError Unit) : HookProgress × List HookEvent :=
  if client then (.running (.closing result), [.clientClosing]) else (.ended result, [])

/-- Go on with what is left to be done. -/
def advance (client : Bool) : List HookAction → HookProgress × List HookEvent
  | [] => finish client (.ok ())
  | .send statement :: rest => (.running (.sending statement rest), [.sent statement])
  | .pause duration :: rest =>
      (.running (.pausing client duration rest), [.pausing duration])

/-- Begin to run hooks. -/
def begin (hooks : List Hook) : HookProgress × List HookEvent :=
  let actions := hooks.flatMap Hook.actions
  if actions.any HookAction.isSend then (.running (.acquiring actions), [.clientAsked])
  else advance false actions

/-- Why a statement failed, if it did. -/
def failure? : Reply → Option String
  | .error error => some error.message
  | .ok response => if response.succeeded then none else some response.reason

/-- The report of a client that could not be closed. -/
def closeLine (graph : String) (phase : HookPhase) (error : ClientError) : LogLine :=
  .warning "Failed to close hook client"
    [("graph", graph), ("phase", phase.word), ("error", error.message)]

/-- What an answer leads to. -/
def receive (graph : String) (phase : HookPhase) :
    HookRun → Answer → Option (HookProgress × List HookEvent)
  | .acquiring _, .client (.error error) => some (.ended (.error (.clientPool graph error)), [])
  | .acquiring rest, .client (.ok ()) => some (advance true rest)
  | .sending statement rest, .reply reply =>
      let (progress, events) :=
        match failure? reply with
        | some message => finish true (.error (.hook graph phase statement message))
        | none => advance true rest
      some (progress, .answered statement (failure? reply).isNone :: events)
  | .pausing client duration rest, .elapsed =>
      let (progress, events) := advance client rest
      some (progress, .paused duration :: events)
  | .closing result, .client (.error error) =>
      some (.ended result, [.logged (closeLine graph phase error)])
  | .closing result, .client (.ok ()) => some (.ended result, [])
  | _, _ => none

end HookRun

end BulkLoad
