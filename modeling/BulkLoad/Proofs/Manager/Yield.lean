import BulkLoad.Proofs.Manager.Batch
import BulkLoad.Proofs.Retry
import Mathlib.Algebra.Group.Prod
import Mathlib.Algebra.Order.Group.Multiset

/-!
# What a batch comes to

If the server answers each statement by its text alone, it is settled beforehand what comes of a
batch: which statements are executed for it, how often, and what the counters are raised by. The
`yield` of a state is what has come of the run so far, that of a task what is still to come of it. A
step of a task moves its gain from the one to the other (`TaskStep.gain`), as long as the times that
come to pass can all be added.
-/

namespace BulkLoad

/-- The import of a portion by a server that answers each statement by its text alone. -/
def Portion.run (p : Portion) (reply : String → Reply) : Importer.Run Unit :=
  p.importer.run (fun server statement => (reply statement, server)) p.records ()

namespace Manager

/-- What comes of something: what it raises the counters by, and the statements that are executed
for it, in no order. -/
abbrev Yield := Counts × Multiset String

/-- The accumulated times of a yield are no longer than the longest span. -/
def TimesFit (y : Yield) : Prop :=
  (y.1 .latency : Nat) ≤ Duration.longest.totalNanos ∧
    (y.1 .respTime : Nat) ≤ Duration.longest.totalNanos

instance (y : Yield) : Decidable (TimesFit y) := inferInstanceAs (Decidable (_ ∧ _))

/-- A part of what fits does. -/
theorem TimesFit.of_add {y rest : Yield} (h : TimesFit (y + rest)) : TimesFit y :=
  ⟨Nat.le_trans (Nat.le_add_right _ _) h.1, Nat.le_trans (Nat.le_add_right _ _) h.2⟩

/-- The statement that an event sends. -/
def Event.statement? : Event → Option String
  | .sending _ statement => some statement
  | .sourceOpening _ | .sourceOpened _ | .sourceClosing _ | .registered _ | .reading _ | .read _ _
  | .submitted _ _ _ | .rejected _ _ | .imported _ _ _ | .settled _ | .hook _ _ | .poolOpening
  | .poolOpened | .poolClosing | .cancelled | .progress | .logged _ => none

/-- The statements that have been executed. -/
def executed (history : List Event) : Multiset String := history.filterMap Event.statement?

/-- What has come of a run. -/
def State.yield (s : State) : Yield := (s.stats.counters, executed s.history)

/-! ## What is still to come -/

/-- The attempts to execute the statement of a shipment, from the one with this number on. -/
def Shipment.attempts (shipment : Shipment) (reply : String → Reply) (attempt : Nat) :
    RetryPolicy.Run Unit ClientError Response :=
  shipment.portion.importer.retry.runFrom Importer.classify
    (fun server => (Importer.attempt (reply shipment.statement), server)) attempt
    (shipment.portion.importer.retry.maxAttempts - attempt) ()

/-- What comes of a portion with this outcome and of what follows. Nothing follows a panic. -/
def yieldAfter (p : Portion) (outcome : ImportOutcome) (marks : List Bool)
    (next : List Bool → Yield) : Yield :=
  if outcome.panic? = none then (p.raised outcome, 0) + next (marksAfter p outcome marks) else 0

/-- What comes of the portions that remain of a batch, and of accounting for it. -/
def yieldOf (reply : String → Reply) (units : Nat) : List Portion → List Bool → Yield
  | [], marks => ((settleBatch {} units marks).counters, 0)
  | p :: rest, marks =>
      (0, ((p.run reply).sent : Multiset String)) +
        yieldAfter p (p.run reply).outcome marks (yieldOf reply units rest)

/-- What comes of a shipment whose statement is sent as often as this, and of what follows. -/
def Shipment.yield (shipment : Shipment) (reply : String → Reply) (units : Nat)
    (marks : List Bool) (sent : Nat) (result : Except (RetryError ClientError) Response) : Yield :=
  (0, Multiset.replicate sent shipment.statement) +
    yieldAfter shipment.portion (Importer.conclude shipment.statement shipment.count result) marks
      (yieldOf reply units shipment.rest)

/-- What is still to come of a task. The statement that is on its way has already been sent. -/
def Task.yield (t : Task) (reply : String → Reply) : Yield :=
  match t.point with
  | .turning rest => yieldOf reply t.batch.units rest t.marks
  | .sending shipment =>
      let run := shipment.attempts reply shipment.attempt
      shipment.yield reply t.batch.units t.marks (run.calls - 1) run.result
  | .resting _ shipment =>
      let run := shipment.attempts reply (shipment.attempt + 1)
      shipment.yield reply t.batch.units t.marks run.calls run.result

/-! ## Attempts -/

section

variable {reply : String → Reply} {shipment : Shipment} {attempt : Nat}

/-- An attempt that succeeds is the last one. -/
theorem attempts_of_ok {response : Response}
    (h : Importer.attempt (reply shipment.statement) = .ok response) :
    (shipment.attempts reply attempt).result = .ok response ∧
      (shipment.attempts reply attempt).calls = 1 := by
  unfold Shipment.attempts
  rw [RetryPolicy.runFrom.eq_def]
  simp only [h, true_and]
  rfl

/-- An attempt after which nothing is left to try is the last one. -/
theorem attempts_of_give_up {error : ClientError} {failure : RetryError ClientError}
    (h : Importer.attempt (reply shipment.statement) = .error error)
    (hverdict : shipment.portion.importer.retry.verdict Importer.classify attempt error =
      .giveUp failure) :
    (shipment.attempts reply attempt).result = .error failure ∧
      (shipment.attempts reply attempt).calls = 1 := by
  unfold Shipment.attempts
  rw [RetryPolicy.runFrom.eq_def]
  simp only [h, hverdict, true_and]
  rfl

/-- Other attempts are followed by those from the next one on. -/
theorem attempts_of_again {error : ClientError} {delay : Duration}
    (h : Importer.attempt (reply shipment.statement) = .error error)
    (hverdict : shipment.portion.importer.retry.verdict Importer.classify attempt error =
      .again delay) :
    (shipment.attempts reply attempt).result = (shipment.attempts reply (attempt + 1)).result ∧
      (shipment.attempts reply attempt).calls =
        (shipment.attempts reply (attempt + 1)).calls + 1 := by
  have hlt := RetryPolicy.lt_of_again hverdict
  obtain ⟨left, hleft⟩ := Nat.exists_eq_add_one.mpr
    (Nat.sub_pos_of_lt (Nat.lt_of_succ_lt hlt))
  have hnext : shipment.portion.importer.retry.maxAttempts - (attempt + 1) = left := by omega
  unfold Shipment.attempts
  rw [hnext, hleft, RetryPolicy.runFrom.eq_def]
  simp only [h, hverdict]
  exact ⟨rfl, rfl⟩

/-- There is at least one attempt. -/
theorem calls_of_attempts (shipment : Shipment) (reply : String → Reply) (attempt : Nat) :
    0 < (shipment.attempts reply attempt).calls := by
  unfold Shipment.attempts
  rw [RetryPolicy.runFrom.eq_def]
  cases Importer.attempt (reply shipment.statement) with
  | ok response => exact Nat.one_pos
  | error error =>
      dsimp only
      split
      · exact Nat.one_pos
      · exact Nat.one_pos
      · exact Nat.succ_pos _

/-- A portion whose outcome is clear sends nothing. -/
theorem run_of_settled (reply : String → Reply) {p : Portion} {outcome : ImportOutcome}
    (h : p.importer.plan p.records = .settled outcome) :
    (p.run reply).outcome = outcome ∧ (p.run reply).sent = [] := by
  simp only [Portion.run, Importer.run, h, and_self]

/-- A portion that is sent ends as its attempts do. -/
theorem run_of_send (reply : String → Reply) (rest : List Portion) {p : Portion}
    {statement : String} {count : Nat} (h : p.importer.plan p.records = .send statement count) :
    (p.run reply).outcome = Importer.conclude statement count
        ((⟨p, statement, count, 0, rest⟩ : Shipment).attempts reply 0).result ∧
      (p.run reply).sent =
        List.replicate ((⟨p, statement, count, 0, rest⟩ : Shipment).attempts reply 0).calls
          statement := by
  simp only [Portion.run, Importer.run, h]
  exact ⟨rfl, rfl⟩

/-- Sending a statement once more executes it once more. -/
theorem Shipment.yield_succ (shipment : Shipment) (reply : String → Reply) (units : Nat)
    (marks : List Bool) (sent : Nat) (result : Except (RetryError ClientError) Response) :
    shipment.yield reply units marks (sent + 1) result =
      (0, {shipment.statement}) + shipment.yield reply units marks sent result := by
  have hsent : ((0, Multiset.replicate (sent + 1) shipment.statement) : Yield) =
      (0, {shipment.statement}) + (0, Multiset.replicate sent shipment.statement) := by
    refine Prod.ext (add_zero _).symm ?_
    rw [Multiset.replicate_succ, ← Multiset.singleton_add]
    rfl
  rw [Shipment.yield, Shipment.yield, hsent, add_assoc]

end

/-! ## The gain of a step -/

/-- What a step of task `n`, which is `t`, gains is no longer to come. -/
inductive TaskGain (reply : String → Reply) (s next : State) (n : Nat) (t : Task) : Prop where
  | goesOn (gained : Yield) (after : Task) (hyield : next.yield = s.yield + gained)
      (htasks : next.tasks = (s.putTask n after).tasks)
      (hleft : t.yield reply = gained + after.yield reply)
  | ends (gained : Yield) (hyield : next.yield = s.yield + gained)
      (htasks : next.tasks = s.tasks.filter fun (other, _) => other != n)
      (hleft : t.yield reply = gained)

section

variable {settings : Settings} {reply : String → Reply} {s next : State} {n : Nat} {t : Task}

/-- Reports execute nothing. -/
theorem executed_report (lines : List LogLine) (history : List Event) :
    executed (lines.map .logged ++ history) = executed history :=
  congrArg (fun statements : List String => (statements : Multiset String))
    (filter_map_report (fun _ => rfl) lines history)

/-- Sending a statement executes it. -/
theorem yield_send (s : State) (n : Nat) (t : Task) (shipment : Shipment) :
    (s.send n t shipment).yield = s.yield + (0, {shipment.statement}) := by
  refine Prod.ext (add_zero _).symm ?_
  show (((shipment.statement :: s.history.filterMap Event.statement? : List String)) :
    Multiset String) = _
  rw [← Multiset.cons_coe, ← Multiset.singleton_add, add_comm]
  rfl

/-- The end of a portion gains what its outcome raises the counters by. -/
theorem Concluded.gain {portion : Portion} {rest : List Portion} {outcome : ImportOutcome}
    (h : Concluded s n t portion rest outcome next)
    (hleft : t.yield reply =
      yieldAfter portion outcome t.marks (yieldOf reply t.batch.units rest))
    (hfits : TimesFit (s.yield + t.yield reply)) : TaskGain reply s next n t := by
  rw [hleft, yieldAfter] at hfits
  rw [yieldAfter] at hleft
  cases h with
  | imported lines stats marks hcalm haccount =>
      have hpanic : outcome.panic? = none := by
        cases outcome with
        | imported | failed => rfl
        | panicked message => exact absurd rfl (hcalm message)
      rw [if_pos hpanic] at hleft
      obtain ⟨rfl, -⟩ := account_complete n haccount
      refine .goesOn (portion.raised outcome, 0) _ (Prod.ext ?_ ?_) rfl hleft
      · exact counters_account haccount
      · exact (executed_report lines _).trans (add_zero _).symm
  | panicked message houtcome =>
      rw [houtcome, if_neg nofun] at hleft
      exact .ends 0 (add_zero s.yield).symm rfl hleft
  | overflowed stats marks haccount =>
      obtain ⟨hpanic, hlong⟩ := gain_of_overflowed haccount
      rw [if_pos hpanic, raised_eq_gain, ← add_assoc] at hfits
      obtain ⟨hlatency, hrespTime⟩ := hfits.of_add
      rcases hlong with hlong | hlong
      · exact absurd hlatency (Nat.not_le.mpr hlong)
      · exact absurd hrespTime (Nat.not_le.mpr hlong)

/-- A step of a task that gets the answer to its statement gains what is no longer to come, as long
as all times fit. -/
theorem TaskStep.gain {answer : Answer} (h : TaskStep settings s n t answer next)
    (hreply : ∀ shipment, t.point = .sending shipment →
      answer = .reply (reply shipment.statement))
    (hfits : TimesFit (s.yield + t.yield reply)) : TaskGain reply s next n t := by
  cases h with
  | settled hpoint =>
      refine .ends ((settleBatch {} t.batch.units t.marks).counters, 0) (Prod.ext ?_ ?_) rfl ?_
      · exact counters_settle s.stats t.batch.units t.marks
      · exact (add_zero _).symm
      · simp only [Task.yield, hpoint, yieldOf]
  | sent portion rest statement count hpoint hplan =>
      refine .goesOn (0, {statement}) _ (yield_send s n t _) rfl ?_
      obtain ⟨houtcome, hsent⟩ := run_of_send reply rest hplan
      have hyield : t.yield reply = (⟨portion, statement, count, 0, rest⟩ : Shipment).yield reply
          t.batch.units t.marks
          ((⟨portion, statement, count, 0, rest⟩ : Shipment).attempts reply 0).calls
          ((⟨portion, statement, count, 0, rest⟩ : Shipment).attempts reply 0).result := by
        simp only [Task.yield, hpoint, yieldOf, Shipment.yield, houtcome, hsent,
          Multiset.coe_replicate]
      obtain ⟨calls, hcalls⟩ := Nat.exists_eq_add_one.mpr
        (calls_of_attempts ⟨portion, statement, count, 0, rest⟩ reply 0)
      rw [hyield, hcalls, Shipment.yield_succ]
      simp only [Task.yield, hcalls, Nat.add_sub_cancel]
  | planned portion rest outcome next hpoint hplan hnext =>
      refine hnext.gain ?_ hfits
      obtain ⟨houtcome, hsent⟩ := run_of_settled reply hplan
      simp only [Task.yield, hpoint, yieldOf, houtcome, hsent]
      exact zero_add _
  | concluded shipment given result next hpoint hresult hnext =>
      refine hnext.gain ?_ hfits
      obtain rfl : given = reply shipment.statement := Answer.reply.inj (hreply shipment hpoint)
      obtain ⟨hlast, hcalls⟩ : (shipment.attempts reply shipment.attempt).result = result ∧
          (shipment.attempts reply shipment.attempt).calls = 1 := by
        rcases hresult with ⟨response, hanswer, rfl⟩ | ⟨error, failure, hanswer, hverdict, rfl⟩
        · exact attempts_of_ok hanswer
        · exact attempts_of_give_up hanswer hverdict
      simp only [Task.yield, hpoint, hlast, hcalls, Shipment.yield]
      exact zero_add _
  | crashed shipment message next hpoint hnext => cases hreply shipment hpoint
  | rested shipment given error delay hpoint hanswer hverdict =>
      obtain rfl : given = reply shipment.statement := Answer.reply.inj (hreply shipment hpoint)
      obtain ⟨hresult, hcalls⟩ := attempts_of_again hanswer hverdict
      refine .goesOn 0 _ (add_zero s.yield).symm rfl ?_
      simp only [Task.yield, hpoint, hresult, hcalls, Nat.add_sub_cancel, zero_add]
  | resent delay shipment hpoint =>
      refine .goesOn (0, {shipment.statement}) _ (yield_send s n t _) rfl ?_
      obtain ⟨calls, hcalls⟩ := Nat.exists_eq_add_one.mpr
        (calls_of_attempts shipment reply (shipment.attempt + 1))
      have hsame : ({ shipment with attempt := shipment.attempt + 1 } : Shipment).attempts reply
          (shipment.attempt + 1) = shipment.attempts reply (shipment.attempt + 1) := rfl
      simp only [Task.yield, hpoint, hsame, hcalls, Nat.add_sub_cancel]
      exact shipment.yield_succ reply _ _ calls _

end

end Manager

end BulkLoad
