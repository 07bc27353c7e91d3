import BulkLoad.Proofs.Hook.Run
import BulkLoad.Proofs.Steps

/-!
# What the hooks of a phase come to

The answers that the hooks of a phase get decide where they stand, and in the end their result
(`hooksAfter`). Whatever the answers are, the statements that are sent and those that are left to be
sent are, in this order, a first part of the statements of the phase (`owed_of_begin`,
`owed_of_receive`): none is sent twice, and none out of turn.
-/

namespace BulkLoad

/-- Where an answer leads the hooks of a phase to, if they wait for it. -/
def HookProgress.receive (graph : String) (phase : HookPhase) :
    HookProgress → Answer → Option HookProgress
  | .running run, answer => (run.receive graph phase answer).map Prod.fst
  | .ended _, _ => none

/-- Where the hooks of a phase stand after these answers, if they wait for each of them. -/
def hooksAfter (graph : String) (phase : HookPhase) (hooks : List Hook) (answers : List Answer) :
    Option HookProgress :=
  answers.foldlM (HookProgress.receive graph phase) (HookRun.begin hooks).1

/-- The statements that are left to be sent. -/
def HookRun.owed : HookRun → List String
  | acquiring rest | pausing _ _ rest | sending _ rest => statementsIn rest
  | closing _ => []

/-- The statements that are left to be sent, none once the hooks have ended. -/
def HookProgress.owed : HookProgress → List String
  | running run => run.owed
  | ended _ => []

section

variable {graph : String} {phase : HookPhase} {hooks : List Hook} {answers : List Answer}
  {answer : Answer} {run : HookRun} {progress : HookProgress} {said : List HookEvent}

/-- One more answer leads on from where the hooks stand. -/
theorem hooks_after_concat (h : hooksAfter graph phase hooks answers = some (.running run))
    (hreceive : run.receive graph phase answer = some (progress, said)) :
    hooksAfter graph phase hooks (answers ++ [answer]) = some progress := by
  have hlast : HookProgress.receive graph phase (.running run) answer = some progress := by
    rw [HookProgress.receive, hreceive]
    rfl
  exact Steps.concat_iff.mpr ⟨_, h, hlast⟩

/-- Going on sends statements in their turn. -/
theorem owed_of_advance (client : Bool) (rest : List HookAction) :
    sentIn (HookRun.advance client rest).2 ++ (HookRun.advance client rest).1.owed =
      statementsIn rest := by
  cases rest with
  | nil =>
      cases client with
      | false | true => rfl
  | cons action rest =>
      cases action with
      | send statement | pause duration => rfl

/-- Hooks begin by owing the statements that are theirs, less those that they send at once. -/
theorem owed_of_begin (hooks : List Hook) :
    sentIn (HookRun.begin hooks).2 ++ (HookRun.begin hooks).1.owed = hooks.flatMap Hook.sent := by
  simp only [HookRun.begin]
  split
  · exact statements_in_hooks hooks
  · rw [← statements_in_hooks]
    exact owed_of_advance false _

/-- An answer makes hooks send statements that they owe, in their turn, or owe none any more. -/
theorem owed_of_receive (hreceive : run.receive graph phase answer = some (progress, said)) :
    sentIn said ++ progress.owed <+: run.owed := by
  cases HookRun.receives_of_receive hreceive with
  | refused | failed | unclosed | closed => exact List.nil_prefix
  | acquired rest =>
      rw [owed_of_advance]
      exact List.prefix_rfl
  | executed statement rest =>
      -- The answer itself sends nothing.
      show sentIn (HookRun.advance true rest).2 ++ _ <+: statementsIn rest
      exact owed_of_advance true rest ▸ List.prefix_rfl
  | paused client duration rest =>
      show sentIn (HookRun.advance client rest).2 ++ _ <+: statementsIn rest
      exact owed_of_advance client rest ▸ List.prefix_rfl

end

end BulkLoad
