import BulkLoad.Proofs.Importer
import Mathlib.Data.Nat.Find

/-!
# How an import ends

Without a statement to send, an import ends without a call. Otherwise the replies that the statement
would get if it were sent over and over decide (`DecidedBy`): a reply that settles the matter is a
success or says that the pool is not open, and the import succeeds just if the first of these, as
far as the policy allows, is a success (`outcome_of_built`).
-/

namespace BulkLoad.Importer

/-- A reply says that the statement was executed, with this response. -/
def Executed (reply : Reply) (response : Response) : Prop :=
  reply = .ok response ∧ response.succeeded = true

/-- What a server notes and the outcome of an import are those of a statement that carries `count`
records and is sent at most `limit` times, if these are the replies that it would get. -/
structure DecidedBy (reply : Nat → Reply) (limit count : Nat) (statement : String)
    (noted : List (String × Reply)) (outcome : ImportOutcome) : Prop where
  calls_le : noted.length ≤ limit
  notes : noted = (List.range noted.length).map fun n => (statement, reply n)
  imported_iff : (∃ result, outcome = .imported result) ↔
    ∃ n < limit, (∃ response, Executed (reply n) response) ∧
      ∀ m < n, reply m ≠ .error .poolNotOpen
  first : ∀ n < limit, ∀ response, Executed (reply n) response →
    (∀ m < n, (∀ other, ¬ Executed (reply m) other) ∧ reply m ≠ .error .poolNotOpen) →
      noted.length = n + 1 ∧ outcome = .imported ⟨count, response.latency, response.respTime⟩
  failed : (¬ ∃ result, outcome = .imported result) →
    ∃ attempts error, outcome = .failed (.execute statement attempts error)

/-! ## Replies -/

/-- An attempt succeeds just if the statement was executed. -/
theorem attempt_eq_ok {reply : Reply} {response : Response} :
    attempt reply = .ok response ↔ Executed reply response := by
  cases reply with
  | error error => simp [attempt, Executed]
  | ok given =>
      cases hsucceeded : given.succeeded with
      | false =>
          simp only [attempt, hsucceeded, Executed, Except.ok.injEq, Bool.false_eq_true, if_false,
            reduceCtorEq, false_iff, not_and]
          rintro rfl
          simp [hsucceeded]
      | true =>
          simp only [attempt, hsucceeded, Executed, Except.ok.injEq, if_true]
          exact ⟨fun h => ⟨h, h ▸ hsucceeded⟩, fun h => h.1⟩

/-- Only a success and a pool that is not open are not worth another call. -/
theorem retryable_attempt {reply : Reply} :
    RetryPolicy.Retryable classify (attempt reply) ↔
      (∀ response, ¬ Executed reply response) ∧ reply ≠ .error .poolNotOpen := by
  cases reply with
  | error error => cases error <;> simp [RetryPolicy.Retryable, attempt, classify, Executed]
  | ok response =>
      cases hsucceeded : response.succeeded <;>
        simp [RetryPolicy.Retryable, attempt, classify, Executed, hsucceeded]

section

variable {σ : Type} {i : Importer} {records : Records} {statement : String} {count k : Nat}
  {execute : σ → String → Reply × σ} {server : σ} {response : Response}

/-! ## A statement that is sent -/

/-- A call that fails for good makes the import fail. -/
theorem failed_of_settled (statement : String) (count calls : Nat) (error : ClientError) :
    ∃ attempts, conclude statement count (RetryPolicy.settled classify calls (.error error)) =
      .failed (.execute statement attempts error) := by
  cases error with
  | poolNotOpen => exact ⟨1, rfl⟩
  | «open» | acquire | transport | rejected => exact ⟨calls, rfl⟩

/-- If a success comes first, as far as the policy allows, it is the reply to the last call, and
the import succeeds with it. -/
theorem imported_of_first (hplan : i.plan records = .send statement count)
    (hk : k < max 1 i.retry.maxAttempts)
    (hexecuted : Executed (replyAt execute statement k server) response)
    (hearlier : ∀ m < k, (∀ other, ¬ Executed (replyAt execute statement m server) other) ∧
      replyAt execute statement m server ≠ .error .poolNotOpen) :
    (i.notes execute records server).length = k + 1 ∧
      (i.run execute records server).outcome =
        .imported ⟨count, response.latency, response.respTime⟩ := by
  obtain ⟨n, hnotes, -, hlt, hbefore, hlast, houtcome⟩ := notes_of_send hplan execute server
  have hlength : (i.notes execute records server).length = n + 1 := by
    rw [hnotes, replies, List.length_map, List.length_range]
  rcases Nat.lt_trichotomy n k with hless | rfl | hmore
  · -- The last call failed in a way that is worth another, so it was the last that is allowed.
    have hlimit := hlast (retryable_attempt.mpr (hearlier n hless))
    omega
  · refine ⟨hlength, ?_⟩
    rw [houtcome, attempt_eq_ok.mpr hexecuted]
    rfl
  · exact absurd hexecuted ((retryable_attempt.mp (hbefore k hmore)).1 response)

/-- If an import succeeds, the reply to its last call was a success, and the pool was open at those
before. -/
theorem success_of_imported (hplan : i.plan records = .send statement count)
    (himported : ∃ result, (i.run execute records server).outcome = .imported result) :
    ∃ n < max 1 i.retry.maxAttempts,
      (∃ response, Executed (replyAt execute statement n server) response) ∧
        ∀ m < n, replyAt execute statement m server ≠ .error .poolNotOpen := by
  obtain ⟨n, -, -, hlt, hbefore, -, houtcome⟩ := notes_of_send hplan execute server
  obtain ⟨result, hresult⟩ := himported
  refine ⟨n, hlt, ?_, fun m hm => (retryable_attempt.mp (hbefore m hm)).2⟩
  cases hanswer : attempt (replyAt execute statement n server) with
  | ok response => exact ⟨response, attempt_eq_ok.mp hanswer⟩
  | error error =>
      obtain ⟨attempts, hfailed⟩ := failed_of_settled statement count (n + 1) error
      rw [houtcome, hanswer, hfailed] at hresult
      cases hresult

/-- If some reply is a success, as far as the policy allows, and the pool is open until then, then
the import succeeds. -/
theorem imported_of_success (hplan : i.plan records = .send statement count)
    (hk : k < max 1 i.retry.maxAttempts)
    (hsuccess : ∃ response, Executed (replyAt execute statement k server) response)
    (hopen : ∀ m < k, replyAt execute statement m server ≠ .error .poolNotOpen) :
    ∃ result, (i.run execute records server).outcome = .imported result := by
  classical
  -- The first success comes no later than the one at hand, so the pool is open until then.
  have hexists : ∃ k, ∃ response, Executed (replyAt execute statement k server) response :=
    ⟨k, hsuccess⟩
  have hle : Nat.find hexists ≤ k := Nat.find_min' hexists hsuccess
  obtain ⟨response, hexecuted⟩ := Nat.find_spec hexists
  obtain ⟨-, houtcome⟩ := imported_of_first hplan (Nat.lt_of_le_of_lt hle hk) hexecuted
    fun m hm => ⟨fun other hother => Nat.find_min hexists hm ⟨other, hother⟩,
      hopen m (Nat.lt_of_lt_of_le hm hle)⟩
  exact ⟨_, houtcome⟩

/-- The import of a statement that is sent is decided by the replies that it would get. -/
theorem decided_of_send (hplan : i.plan records = .send statement count)
    (execute : σ → String → Reply × σ) (server : σ) :
    DecidedBy (replyAt execute statement · server) (max 1 i.retry.maxAttempts) count statement
      (i.notes execute records server) (i.run execute records server).outcome := by
  obtain ⟨n, hnotes, -, hlt, -, -, houtcome⟩ := notes_of_send hplan execute server
  have hlength : (i.notes execute records server).length = n + 1 := by
    rw [hnotes, replies, List.length_map, List.length_range]
  refine ⟨hlength ▸ hlt, ?_, ⟨success_of_imported hplan, ?_⟩, ?_, ?_⟩
  · rw [hlength]
    exact hnotes
  · rintro ⟨k, hk, hsuccess, hopen⟩
    exact imported_of_success hplan hk hsuccess hopen
  · exact fun k hk response => imported_of_first hplan hk
  · intro hnot
    rw [houtcome] at hnot ⊢
    cases hanswer : attempt (replyAt execute statement n server) with
    | ok response =>
        rw [hanswer] at hnot
        exact absurd ⟨_, rfl⟩ hnot
    | error error =>
        obtain ⟨attempts, hfailed⟩ := failed_of_settled statement count (n + 1) error
        exact ⟨attempts, error, hfailed⟩

/-! ## Every import -/

/-- An import without a statement to send makes no call. -/
theorem notes_of_settled {outcome : ImportOutcome} (hplan : i.plan records = .settled outcome)
    (execute : σ → String → Reply × σ) (server : σ) :
    i.notes execute records server = [] ∧ (i.run execute records server).outcome = outcome := by
  simp only [notes, run, hplan, and_self]

/-- How an import ends. A builder that fails and a statement without records or text lead to no
call: the failure is reported with the number of records given, and the other case is a success
without records and times. Any other statement is sent until a success or a pool that is not open
settles the matter or the policy allows no further call, and the replies decide. -/
theorem outcome_of_built (i : Importer) (execute : σ → String → Reply × σ) (records : Records)
    (server : σ) :
    (∀ error, i.build records = .failed error →
      i.notes execute records server = [] ∧
        (i.run execute records server).outcome = .failed (.build records.length error)) ∧
    (∀ statement count, i.build records = .statement statement count →
      count = 0 ∨ statement = "" →
        i.notes execute records server = [] ∧ (i.run execute records server).outcome =
          .imported ⟨0, Duration.zero, Duration.zero⟩) ∧
    ∀ statement count, i.build records = .statement statement count →
      count ≠ 0 → statement ≠ "" →
        DecidedBy (replyAt execute statement · server) (max 1 i.retry.maxAttempts) count statement
          (i.notes execute records server) (i.run execute records server).outcome := by
  refine ⟨?_, ?_, ?_⟩
  · intro error hbuilt
    have hplan : i.plan records = .settled (.failed (.build records.length error)) := by
      simp only [plan, hbuilt]
    exact notes_of_settled hplan execute server
  · intro statement count hbuilt hnothing
    have hplan : i.plan records = .settled (.imported {}) := by
      simp only [plan, hbuilt]
      rw [if_pos]
      simpa [String.isEmpty_iff] using hnothing
    exact notes_of_settled hplan execute server
  · intro statement count hbuilt hcount hstatement
    have hplan : i.plan records = .send statement count := by
      simp only [plan, hbuilt]
      rw [if_neg]
      simpa [String.isEmpty_iff] using ⟨hcount, hstatement⟩
    exact decided_of_send hplan execute server

end

namespace Sample

/-- An importer with the usual policy, which allows five attempts. -/
def patient : Importer where
  name := "patient"
  build := Rehearsal.joining

/-- A server that fails in different ways before it executes a statement. -/
def recovering : Rehearsal.Server where
  script := [.error (.transport "reset"), .ok (.failure "busy"), .error (.acquire "none left"),
    .ok { error := none }, .ok (.success (.ofNanos 5) (.ofNanos 7))]

end Sample

/-- A statement that is executed at the fifth call is imported with the times of that call. -/
theorem outcome_of_recovered :
    (Sample.patient.notes Rehearsal.Server.answer [["a"]] Sample.recovering).length = 5 ∧
      (Sample.patient.run Rehearsal.Server.answer [["a"]] Sample.recovering).outcome =
        .imported ⟨1, .ofNanos 5, .ofNanos 7⟩ := by
  obtain ⟨-, -, hsent⟩ :=
    outcome_of_built Sample.patient Rehearsal.Server.answer [["a"]] Sample.recovering
  have hdecided := hsent "INSERT a" 1 (by decide +kernel) (by decide) (by decide)
  refine hdecided.first 4 (by decide) (.success (.ofNanos 5) (.ofNanos 7)) ⟨rfl, rfl⟩ ?_
  intro m hm
  refine retryable_attempt.mp ?_
  match m, hm with
  | 0, _ | 1, _ | 2, _ | 3, _ => exact ⟨_, rfl, rfl⟩

end BulkLoad.Importer
