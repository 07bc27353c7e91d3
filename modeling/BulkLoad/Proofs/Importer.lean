import BulkLoad.Importer
import BulkLoad.Proofs.Retry
import BulkLoad.Rehearsal.Builders
import BulkLoad.Rehearsal.Server

/-!
# What a failed import reports

A server that notes what it is sent does not change an import (`run_noting`), so its notes are the
calls that the import makes; the statements in them are those that it says it has sent
(`sent_of_run`). When a statement could not be executed, the error holds the statement of every call
and the cause of the last one (`attempts_of_failed`). It counts the calls as well, except that a pool
that is not open always counts as the first attempt, whatever was tried before.
-/

namespace BulkLoad.Importer

section

variable {σ : Type} {execute : σ → String → Reply × σ} {i : Importer} {records : Records}
  {server : σ} {statement : String} {count : Nat}

/-- A server that notes every statement that it is sent, with its reply. -/
def noting (execute : σ → String → Reply × σ) (server : σ × List (String × Reply))
    (statement : String) : Reply × σ × List (String × Reply) :=
  let (reply, next) := execute server.1 statement
  (reply, next, server.2 ++ [(statement, reply)])

/-- What a server notes while records are imported. -/
def notes (i : Importer) (execute : σ → String → Reply × σ) (records : Records) (server : σ) :
    List (String × Reply) :=
  (i.run (noting execute) records (server, [])).server.2

/-- One attempt to have a statement executed. -/
def sending (execute : σ → String → Reply × σ) (statement : String) (server : σ) :
    Except ClientError Response × σ :=
  let (reply, server) := execute server statement
  (attempt reply, server)

/-- What an import begins with, by what its builder makes of the records. -/
inductive Begins (i : Importer) (records : Records) : ImportPlan → Prop where
  | panicked (message : String) (hbuilt : i.build records = .panicked message) :
      Begins i records (.settled (.panicked message))
  | failed (error : BuildError) (hbuilt : i.build records = .failed error) :
      Begins i records (.settled (.failed (.build records.length error)))
  | nothing (statement : String) (count : Nat)
      (hbuilt : i.build records = .statement statement count)
      (hnothing : count = 0 ∨ statement = "") : Begins i records (.settled (.imported {}))
  | sends (statement : String) (count : Nat)
      (hbuilt : i.build records = .statement statement count) (hcount : count ≠ 0)
      (hstatement : statement ≠ "") : Begins i records (.send statement count)

/-- Every import begins as its builder has it. -/
theorem begins_of_plan {plan : ImportPlan} (hplan : i.plan records = plan) :
    Begins i records plan := by
  subst hplan
  cases hbuilt : i.build records with
  | panicked message =>
      simp only [plan, hbuilt]
      exact .panicked message hbuilt
  | failed error =>
      simp only [plan, hbuilt]
      exact .failed error hbuilt
  | statement statement count =>
      simp only [plan, hbuilt]
      by_cases hnothing : count = 0 ∨ statement = ""
      · rw [if_pos (by simpa [String.isEmpty_iff] using hnothing)]
        exact .nothing statement count hbuilt hnothing
      · rw [if_neg (by simpa [String.isEmpty_iff] using hnothing)]
        obtain ⟨hcount, hstatement⟩ := not_or.mp hnothing
        exact .sends statement count hbuilt hcount hstatement

/-- A statement is sent as its policy says. -/
theorem run_of_plan (hplan : i.plan records = .send statement count)
    (execute : σ → String → Reply × σ) (server : σ) :
    i.run execute records server =
      let run := i.retry.run classify (sending execute statement) server
      ⟨conclude statement count run.result, List.replicate run.calls statement, run.slept,
        run.world⟩ := by
  simp only [run, hplan]
  rfl

/-- To be noted does not change an import. -/
theorem run_noting (i : Importer) (execute : σ → String → Reply × σ) (records : Records)
    (server : σ) :
    i.run execute records server =
      let run := i.run (noting execute) records (server, [])
      ⟨run.outcome, run.sent, run.slept, run.server.1⟩ := by
  cases hplan : i.plan records with
  | settled outcome => simp only [run, hplan]
  | send statement count =>
      have hview (watched : σ × List (String × Reply)) :
          sending execute statement watched.1 =
            ((sending (noting execute) statement watched).1,
              (sending (noting execute) statement watched).2.1) := rfl
      have hsame := RetryPolicy.run_from_of_view hview i.retry classify 0 i.retry.maxAttempts
        (server, [])
      rw [run_of_plan hplan, run_of_plan hplan]
      simp only [RetryPolicy.run, hsame]
      rfl

/-- The reply to a statement that is sent over and over, after it has been sent this many times. -/
def replyAt (execute : σ → String → Reply × σ) (statement : String) : Nat → σ → Reply
  | 0, server => (execute server statement).1
  | n + 1, server => replyAt execute statement n (execute server statement).2

/-- What is noted of a statement that is sent this many times. -/
def replies (execute : σ → String → Reply × σ) (statement : String) (server : σ) (calls : Nat) :
    List (String × Reply) :=
  (List.range calls).map fun n => (statement, replyAt execute statement n server)

/-- An attempt makes of a reply what it makes of it unnoted. -/
theorem answer_at_noting (execute : σ → String → Reply × σ) (statement : String) (n : Nat)
    (watched : σ × List (String × Reply)) :
    RetryPolicy.answerAt (sending (noting execute) statement) n watched =
      attempt (replyAt execute statement n watched.1) := by
  induction n generalizing watched with
  | zero => rfl
  | succ n ih => exact ih _

/-- Attempts to have a statement executed are noted one after another. -/
theorem notes_of_tried {first last : σ × List (String × Reply)} {failures : List ClientError}
    {answer : Except ClientError Response}
    (h : RetryPolicy.Tried classify (sending (noting execute) statement) first failures answer
      last) :
    last.2 = first.2 ++ replies execute statement first.1 (failures.length + 1) := by
  induction h with
  | @last first next answer hcall =>
      obtain ⟨-, rfl⟩ := Prod.mk.inj hcall
      rfl
  | @again first next last error failures answer hcall hretry hrest ih =>
      obtain ⟨-, rfl⟩ := Prod.mk.inj hcall
      rw [ih, replies, replies, List.length_cons, List.range_succ_eq_map (n := failures.length + 1),
        List.map_cons, List.map_map]
      exact List.append_assoc _ _ _

/-- A statement is sent until a reply is not worth another call, at most as often as the policy
allows, but at least once. The last reply decides what comes of it. -/
theorem notes_of_send (hplan : i.plan records = .send statement count)
    (execute : σ → String → Reply × σ) (server : σ) :
    ∃ n, i.notes execute records server = replies execute statement server (n + 1) ∧
      (i.run execute records server).sent = List.replicate (n + 1) statement ∧
      n < max 1 i.retry.maxAttempts ∧
      (∀ m < n, RetryPolicy.Retryable classify (attempt (replyAt execute statement m server))) ∧
      (RetryPolicy.Retryable classify (attempt (replyAt execute statement n server)) →
        n + 1 = max 1 i.retry.maxAttempts) ∧
      (i.run execute records server).outcome = conclude statement count
        (RetryPolicy.settled classify (n + 1) (attempt (replyAt execute statement n server))) := by
  obtain ⟨failures, answer, htried, hlength, -⟩ :=
    i.retry.run_tried classify (sending (noting execute) statement) (server, [])
  obtain ⟨n, hcalls, hlt, hbefore, hlast, hresult⟩ :=
    i.retry.answers_of_run classify (sending (noting execute) statement) (server, [])
  simp only [answer_at_noting] at hbefore hlast hresult
  refine ⟨n, ?_, ?_, hlt, hbefore, hlast, ?_⟩
  · rw [notes, run_of_plan hplan, ← hcalls, hlength]
    exact notes_of_tried htried
  · rw [run_noting, run_of_plan hplan]
    exact congrArg (List.replicate · statement) hcalls
  · rw [run_noting, run_of_plan hplan]
    exact congrArg (conclude statement count) hresult

/-- What has been noted of a statement is a reply to each call, of which the last one decides. -/
theorem notes_of_plan (hplan : i.plan records = .send statement count)
    (execute : σ → String → Reply × σ) (server : σ) :
    ∃ replies reply,
      i.notes execute records server = (replies ++ [reply]).map (statement, ·) ∧
      (i.run execute records server).sent = List.replicate (replies.length + 1) statement ∧
      (i.run execute records server).outcome =
        conclude statement count
          (RetryPolicy.settled classify (replies.length + 1) (attempt reply)) := by
  obtain ⟨n, hnotes, hsent, -, -, -, houtcome⟩ := notes_of_send hplan execute server
  refine ⟨(List.range n).map (replyAt execute statement · server),
    replyAt execute statement n server, ?_, ?_, ?_⟩
  · rw [hnotes, replies, List.range_succ, List.map_append, List.map_append, List.map_map]
    rfl
  · rw [hsent, List.length_map, List.length_range]
  · rw [houtcome, List.length_map, List.length_range]

/-- The statements that an import has sent are those that the server has noted. -/
theorem sent_of_run (i : Importer) (execute : σ → String → Reply × σ) (records : Records)
    (server : σ) :
    (i.run execute records server).sent = (i.notes execute records server).map Prod.fst := by
  cases hplan : i.plan records with
  | settled outcome => simp only [notes, run, hplan, List.map_nil]
  | send statement count =>
      obtain ⟨replies, reply, hnotes, hsent, -⟩ := notes_of_plan hplan execute server
      have hlength : replies.length + 1 = (replies ++ [reply]).length := by
        rw [List.length_append, List.length_singleton]
      rw [hsent, hnotes, List.map_map, hlength]
      exact List.map_const'.symm

/-- Only a statement that is sent can fail to be executed. -/
theorem plan_of_failed {attempts : Nat} {error : ClientError}
    (h : (i.run execute records server).outcome = .failed (.execute statement attempts error)) :
    ∃ sent count, i.plan records = .send sent count := by
  cases hplan : i.plan records with
  | send sent count => exact ⟨sent, count, rfl⟩
  | settled outcome =>
      have houtcome : outcome = .failed (.execute statement attempts error) := by
        simpa only [run, hplan] using h
      rw [houtcome] at hplan
      unfold plan at hplan
      split at hplan
      · cases hplan
      · cases hplan
      · split at hplan <;> cases hplan

/-- What is reported of a failed statement depends on the last answer, and on the calls unless the
pool was not open. -/
theorem failed_of_conclude {sent : String} {calls attempts : Nat} {error : ClientError}
    {answer : Except ClientError Response}
    (h : conclude sent count (RetryPolicy.settled classify calls answer) =
      .failed (.execute statement attempts error)) :
    sent = statement ∧ answer = .error error ∧
      attempts = if error = .poolNotOpen then 1 else calls := by
  cases answer with
  | ok response => cases h
  | error cause =>
      cases cause with
      | poolNotOpen =>
          cases h
          exact ⟨rfl, rfl, rfl⟩
      | «open» | acquire | transport | rejected =>
          cases h
          exact ⟨rfl, rfl, (if_neg nofun).symm⟩

/-- When a statement could not be executed, it is the one that every call sent, the last call failed
with the reported cause, and the calls are counted unless the pool was not open at the last one. -/
theorem attempts_of_failed {attempts : Nat} {error : ClientError}
    (h : (i.run execute records server).outcome = .failed (.execute statement attempts error)) :
    (i.run (noting execute) records (server, [])).outcome =
        .failed (.execute statement attempts error) ∧
      (∀ note ∈ i.notes execute records server, note.1 = statement) ∧
      (∃ reply, (i.notes execute records server).getLast? = some (statement, reply) ∧
        attempt reply = .error error) ∧
      attempts =
        if error = .poolNotOpen then 1 else (i.notes execute records server).length := by
  obtain ⟨sent, count, hplan⟩ := plan_of_failed h
  obtain ⟨replies, reply, hnotes, -, houtcome⟩ := notes_of_plan hplan execute server
  obtain ⟨rfl, hcause, hattempts⟩ := failed_of_conclude (houtcome.symm.trans h)
  have hlength : (i.notes execute records server).length = replies.length + 1 := by
    rw [hnotes, List.length_map, List.length_append, List.length_singleton]
  refine ⟨?_, ?_, ⟨reply, ?_, hcause⟩, ?_⟩
  · rwa [run_noting] at h
  · rw [hnotes]
    exact List.forall_mem_map.mpr fun _ _ => rfl
  · rw [hnotes, List.map_append]
    exact List.getLast?_concat
  · rw [hlength]
    exact hattempts

end

namespace Sample

/-- An importer that tries twice. -/
def twice : Importer where
  name := "twice"
  build := Rehearsal.joining
  retry := RetryPolicy.of 2 (Duration.ofMillis 500) (Duration.ofSecs 10)

/-- A server that loses the connection and then refuses the statement. -/
def refusing : Rehearsal.Server where
  script := [.error (.transport "reset"), .ok (.failure "syntax error")]

/-- A server that loses the connection, whereupon the pool is closed. -/
def closing : Rehearsal.Server where
  script := [.error (.transport "reset"), .error .poolNotOpen]

end Sample

/-- Both calls of a statement that is refused in the end are counted. -/
theorem attempts_of_refused :
    (Sample.twice.run Rehearsal.Server.answer [["a"]] Sample.refusing).outcome =
        .failed (.execute "INSERT a" 2 (.rejected "syntax error")) ∧
      (Sample.twice.notes Rehearsal.Server.answer [["a"]] Sample.refusing).length = 2 := by
  have hfailed : (Sample.twice.run Rehearsal.Server.answer [["a"]] Sample.refusing).outcome =
      .failed (.execute "INSERT a" 2 (.rejected "syntax error")) := by
    decide +kernel
  obtain ⟨-, -, -, hattempts⟩ := attempts_of_failed hfailed
  exact ⟨hfailed, (hattempts.trans (if_neg nofun)).symm⟩

/-- It is not so that all calls are always counted: of two calls, of which the second finds the pool
closed, one is reported. -/
theorem not_all_calls_counted :
    ¬ ∀ (σ : Type) (execute : σ → String → Reply × σ) (i : Importer) (records : Records)
      (server : σ) (statement : String) (attempts : Nat) (error : ClientError),
      (i.run execute records server).outcome = .failed (.execute statement attempts error) →
        attempts = (i.notes execute records server).length := by
  intro h
  have hfailed : (Sample.twice.run Rehearsal.Server.answer [["a"]] Sample.closing).outcome =
      .failed (.execute "INSERT a" 1 .poolNotOpen) := by
    decide +kernel
  have hcalls : (Sample.twice.notes Rehearsal.Server.answer [["a"]] Sample.closing).length = 2 := by
    decide +kernel
  have hcounted := h _ _ _ _ _ _ _ _ hfailed
  rw [hcalls] at hcounted
  cases hcounted

end BulkLoad.Importer
