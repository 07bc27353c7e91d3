import BulkLoad.Client
import BulkLoad.Text.Search

/-!
# A scripted server

A server that answers statements by a script. It first uses up a list of replies. After that, the
first rule whose text the statement contains and that is not used up for this very statement gives
the reply; without such a rule, every statement gets the same reply. Opening and closing the pool
and its clients can be scripted to fail.
-/

namespace BulkLoad.Rehearsal

/-- A reply to statements that contain a text, given to one statement at most so many times. -/
structure Rule where
  marker : String
  times : Option Nat := none
  reply : Reply

/-- A scripted server. `used` counts how often a rule, given by its position, has answered a
statement. -/
structure Server where
  script : List Reply := []
  rules : List Rule := []
  usual : Reply := .ok (.success Duration.zero Duration.zero)
  used : List ((Nat × String) × Nat) := []
  openError : Option ClientError := none
  closeError : Option ClientError := none
  clientError : Option ClientError := none
  clientCloseError : Option ClientError := none
  countsClientCloses : Bool := true

namespace Server

/-- How often the rule at a position has answered a statement. -/
def uses (s : Server) (position : Nat) (statement : String) : Nat :=
  (s.used.lookup (position, statement)).getD 0

/-- Whether the rule at a position answers a statement. -/
def applies (s : Server) (statement : String) (rule : Rule) (position : Nat) : Bool :=
  Text.contains statement rule.marker &&
    match rule.times with
    | none => true
    | some times => s.uses position statement < times

/-- The answer to a statement. -/
def answer (s : Server) (statement : String) : Reply × Server :=
  match s.script with
  | reply :: script => (reply, { s with script })
  | [] =>
      match s.rules.zipIdx.find? fun (rule, position) => s.applies statement rule position with
      | none => (s.usual, s)
      | some (rule, position) =>
          let key := (position, statement)
          (rule.reply,
            { s with used := (key, s.uses position statement + 1) :: s.used.filter (·.1 != key) })

end Server

end BulkLoad.Rehearsal
