import BulkLoad.Retry

/-!
# The attempts of an operation

Whatever an operation does, a policy calls it once, and once more after each error that may go away,
until a call settles the matter (`run_tried`): the result is what the last call makes of all of
them.
Between two calls it sleeps once, as long as the backoff says, and after the last one it does not
(`course_of_run`). Watching an operation does not change what a policy does with it
(`run_from_of_view`).
-/

namespace BulkLoad.RetryPolicy

section

variable {σ τ ε α : Type} {policy : RetryPolicy} {classify : ε → Disposition}
  {operation : σ → Except ε α × σ} {attempt : Nat}

/-- `Tried classify operation world failures answer last` says that the operation was called in this
world, and called again after each of the failures, which are all worth another call. The last call
gave the answer and left the last world. -/
inductive Tried (classify : ε → Disposition) (operation : σ → Except ε α × σ) :
    σ → List ε → Except ε α → σ → Prop where
  | last {world next : σ} {answer : Except ε α} (hcall : operation world = (answer, next)) :
      Tried classify operation world [] answer next
  | again {world next last : σ} {error : ε} {failures : List ε} {answer : Except ε α}
      (hcall : operation world = (.error error, next)) (hretry : classify error = .retry)
      (hrest : Tried classify operation next failures answer last) :
      Tried classify operation world (error :: failures) answer last

/-- The result when the last of so many calls gives this answer. -/
def settled (classify : ε → Disposition) (calls : Nat) :
    Except ε α → Except (RetryError ε) α
  | .ok value => .ok value
  | .error error =>
      match classify error with
      | .stop => .error (.fatal error)
      | .retry => .error (.attemptsExceeded calls error)

/-- Giving up settles the matter. -/
theorem settled_of_give_up {error : ε} {failure : RetryError ε}
    (h : policy.verdict classify attempt error = .giveUp failure) :
    settled classify (attempt + 1) (.error error) = (.error failure : Except (RetryError ε) α) := by
  unfold verdict at h
  cases hclass : classify error with
  | stop =>
      simp only [hclass, Verdict.giveUp.injEq] at h
      simp only [settled, hclass, h]
  | retry =>
      simp only [hclass] at h
      split at h
      · simp only [Verdict.giveUp.injEq] at h
        simp only [settled, hclass, h]
      · cases h

/-- Another attempt follows only an error that may go away. -/
theorem retry_of_again {error : ε} {delay : Duration}
    (h : policy.verdict classify attempt error = .again delay) : classify error = .retry := by
  unfold verdict at h
  split at h
  · cases h
  · assumption

/-- A policy tries again only before its last attempt. -/
theorem lt_of_again {error : ε} {delay : Duration}
    (h : policy.verdict classify attempt error = .again delay) :
    attempt + 1 < policy.maxAttempts := by
  unfold verdict at h
  split at h
  · cases h
  · split at h
    · cases h
    · exact Nat.lt_of_not_le ‹_›

/-- Attempts are used up only with the last one that the policy allows. -/
theorem le_of_give_up {error last : ε} {failure : RetryError ε} {attempts : Nat}
    (h : policy.verdict classify attempt error = .giveUp failure)
    (hfailure : failure = .attemptsExceeded attempts last) :
    policy.maxAttempts ≤ attempt + 1 := by
  subst hfailure
  unfold verdict at h
  split at h
  · cases h
  · split at h
    · assumption
    · cases h

/-- Attempts from the one with this number on are calls until one of them settles the matter. -/
theorem run_from_tried (policy : RetryPolicy) (classify : ε → Disposition)
    (operation : σ → Except ε α × σ) (attempt remaining : Nat) (world : σ) :
    ∃ failures answer,
      Tried classify operation world failures answer
        (policy.runFrom classify operation attempt remaining world).world ∧
      (policy.runFrom classify operation attempt remaining world).calls = failures.length + 1 ∧
      (policy.runFrom classify operation attempt remaining world).result =
        settled classify (attempt + failures.length + 1) answer := by
  -- A success, an error that settles the matter, no attempts left, and another attempt.
  fun_induction runFrom policy classify operation attempt remaining world with
  | case1 attempt remaining world value next hcall => exact ⟨[], _, .last hcall, rfl, rfl⟩
  | case2 attempt remaining world error next hcall failure hverdict =>
      exact ⟨[], _, .last hcall, rfl, (settled_of_give_up hverdict).symm⟩
  | case3 attempt world error next hcall delay hverdict =>
      have hsettled : settled classify (attempt + 1) (.error error) =
          (.error (.attemptsExceeded (attempt + 1) error) : Except (RetryError ε) α) := by
        simp only [settled, retry_of_again hverdict]
      exact ⟨[], _, .last hcall, rfl, hsettled.symm⟩
  | case4 attempt world error next hcall delay remaining hverdict ih =>
      obtain ⟨failures, answer, htried, hcalls, hresult⟩ := ih
      refine ⟨error :: failures, answer, .again hcall (retry_of_again hverdict) htried,
        congrArg (· + 1) hcalls, ?_⟩
      rw [Nat.add_assoc attempt 1, Nat.add_comm 1] at hresult
      exact hresult

/-- A run of a policy is calls until one of them settles the matter. -/
theorem run_tried (policy : RetryPolicy) (classify : ε → Disposition)
    (operation : σ → Except ε α × σ) (world : σ) :
    ∃ failures answer,
      Tried classify operation world failures answer
        (policy.run classify operation world).world ∧
      (policy.run classify operation world).calls = failures.length + 1 ∧
      (policy.run classify operation world).result =
        settled classify (failures.length + 1) answer := by
  obtain ⟨failures, answer, htried, hcalls, hresult⟩ :=
    policy.run_from_tried classify operation 0 policy.maxAttempts world
  rw [Nat.zero_add] at hresult
  exact ⟨failures, answer, htried, hcalls, hresult⟩

/-! ## Answers and attempts -/

/-- The answer to the call with this number, counted from zero, of an operation that is called over
and over. -/
def answerAt (operation : σ → Except ε α × σ) : Nat → σ → Except ε α
  | 0, world => (operation world).1
  | n + 1, world => answerAt operation n (operation world).2

/-- An answer that is worth another call. -/
def Retryable (classify : ε → Disposition) (answer : Except ε α) : Prop :=
  ∃ error, answer = .error error ∧ classify error = .retry

/-- Calls until one settles the matter get the answers of calling over and over. -/
theorem answers_of_tried {world last : σ} {failures : List ε} {answer : Except ε α}
    (h : Tried classify operation world failures answer last) :
    (∀ n < failures.length, Retryable classify (answerAt operation n world)) ∧
      answerAt operation failures.length world = answer := by
  induction h with
  | last hcall =>
      refine ⟨nofun, ?_⟩
      rw [List.length_nil, answerAt, hcall]
  | @again world next last error failures answer hcall hretry hrest ih =>
      obtain ⟨hfailures, hlast⟩ := ih
      have hnext (n : Nat) : answerAt operation (n + 1) world = answerAt operation n next := by
        rw [answerAt, hcall]
      refine ⟨?_, (hnext failures.length).trans hlast⟩
      intro n hn
      cases n with
      | zero =>
          rw [answerAt, hcall]
          exact ⟨error, rfl, hretry⟩
      | succ n =>
          rw [hnext]
          exact hfailures n (Nat.lt_of_succ_lt_succ hn)

/-- No more attempts are made than the policy allows, but at least one, and as many if the last one
is worth another. -/
theorem attempts_of_run_from (policy : RetryPolicy) (classify : ε → Disposition)
    (operation : σ → Except ε α × σ) {attempt remaining : Nat}
    (hremaining : policy.maxAttempts ≤ attempt + remaining) (world : σ) :
    let run := policy.runFrom classify operation attempt remaining world
    attempt + run.calls ≤ max (attempt + 1) policy.maxAttempts ∧
      ∀ attempts error, run.result = .error (.attemptsExceeded attempts error) →
        attempt + run.calls = max (attempt + 1) policy.maxAttempts := by
  fun_induction runFrom policy classify operation attempt remaining world with
  | case1 attempt remaining world value next hcall => exact ⟨Nat.le_max_left _ _, nofun⟩
  | case2 attempt remaining world error next hcall failure hverdict =>
      refine ⟨Nat.le_max_left _ _, ?_⟩
      rintro attempts last hfailure
      exact (Nat.max_eq_left (le_of_give_up hverdict (Except.error.inj hfailure))).symm
  | case3 attempt world error next hcall delay hverdict =>
      -- The attempts that are left are used up only when no other would follow.
      exact absurd hremaining (Nat.not_le.mpr (Nat.lt_of_succ_lt (lt_of_again hverdict)))
  | case4 attempt world error next hcall delay remaining hverdict ih =>
      have hlt := lt_of_again hverdict
      obtain ⟨hle, hall⟩ := ih (by omega)
      have hmax : max (attempt + 1) policy.maxAttempts =
          max (attempt + 1 + 1) policy.maxAttempts := by omega
      rw [Nat.add_right_comm] at hle
      simp only [Nat.add_right_comm attempt 1] at hall
      dsimp only
      rw [hmax, Run.calls_after]
      exact ⟨hle, hall⟩

/-- A run calls its operation until an answer is not worth another call, at most as often as the
policy allows, but at least once. Its result is what the last answer makes of all calls. -/
theorem answers_of_run (policy : RetryPolicy) (classify : ε → Disposition)
    (operation : σ → Except ε α × σ) (world : σ) :
    ∃ n, (policy.run classify operation world).calls = n + 1 ∧ n < max 1 policy.maxAttempts ∧
      (∀ m < n, Retryable classify (answerAt operation m world)) ∧
      (Retryable classify (answerAt operation n world) → n + 1 = max 1 policy.maxAttempts) ∧
      (policy.run classify operation world).result =
        settled classify (n + 1) (answerAt operation n world) := by
  obtain ⟨failures, answer, htried, hcalls, hresult⟩ := policy.run_tried classify operation world
  obtain ⟨hfailures, rfl⟩ := answers_of_tried htried
  obtain ⟨hle, hall⟩ := policy.attempts_of_run_from classify operation
    (Nat.le_of_eq (Nat.zero_add policy.maxAttempts).symm) world
  have hbound : 0 + (policy.run classify operation world).calls ≤ max (0 + 1) policy.maxAttempts :=
    hle
  rw [Nat.zero_add, hcalls] at hbound
  refine ⟨failures.length, hcalls, hbound, hfailures, ?_, hresult⟩
  · rintro ⟨error, hanswer, hretry⟩
    rw [hanswer, settled] at hresult
    simp only [hretry] at hresult
    have hcount := hall _ _ hresult
    rw [Nat.zero_add] at hcount
    exact hcalls.symm.trans hcount

/-! ## Calls and sleeps -/

/-- Calls with these answers, with the sleep of the policy after each of them but the last. The
first call is the attempt with this number. -/
def course (policy : RetryPolicy) (attempt : Nat) (answers : Nat → Except ε α) (sleeps : Nat) :
    List (Event ε α) :=
  ((List.range sleeps).flatMap fun n =>
    [.call (answers n), .sleep (policy.backoffDelay (attempt + n))]) ++ [.call (answers sleeps)]

/-- A course with another call in front. -/
theorem course_succ (policy : RetryPolicy) (attempt : Nat) (answers : Nat → Except ε α)
    (sleeps : Nat) :
    policy.course attempt answers (sleeps + 1) =
      .call (answers 0) :: .sleep (policy.backoffDelay attempt) ::
        policy.course (attempt + 1) (fun n => answers (n + 1)) sleeps := by
  have hlater (n : Nat) : attempt + 1 + n = attempt + (n + 1) := by omega
  simp only [course, List.range_succ_eq_map, List.flatMap_cons, List.flatMap_map, hlater]
  rfl

/-- Another attempt comes after the wait that the policy has for it. -/
theorem delay_of_again {error : ε} {delay : Duration}
    (h : policy.verdict classify attempt error = .again delay) :
    delay = policy.backoffDelay attempt := by
  unfold verdict at h
  split at h
  · cases h
  · split at h
    · cases h
    · exact (Verdict.again.inj h).symm

/-- Attempts from the one with this number on are calls with a sleep between any two of them. -/
theorem events_of_run_from (policy : RetryPolicy) (classify : ε → Disposition)
    (operation : σ → Except ε α × σ) (attempt remaining : Nat) (world : σ) :
    let run := policy.runFrom classify operation attempt remaining world
    run.events = policy.course attempt (answerAt operation · world) (run.calls - 1) ∧
      0 < run.calls := by
  -- Only the last case has another attempt, which then has the answers of the world after this one.
  fun_induction runFrom policy classify operation attempt remaining world with
  | case1 attempt remaining world value next hcall
  | case2 attempt remaining world error next hcall failure hverdict
  | case3 attempt world error next hcall delay hverdict =>
      have hanswer : answerAt operation 0 world = (operation world).1 := rfl
      exact ⟨by simp [course, hanswer, hcall, Run.calls, Event.answer?], Nat.one_pos⟩
  | case4 attempt world error next hcall delay remaining hverdict ih =>
      obtain ⟨hevents, hpos⟩ := ih
      have hanswer : answerAt operation 0 world = .error error := by rw [answerAt, hcall]
      have hlater : (fun n => answerAt operation (n + 1) world) = (answerAt operation · next) := by
        funext n
        rw [answerAt, hcall]
      refine ⟨?_, Nat.succ_pos _⟩
      rw [Run.calls_after, Nat.add_sub_cancel]
      obtain ⟨sleeps, hcalls⟩ := Nat.exists_eq_add_one.mpr hpos
      rw [hcalls, Nat.add_sub_cancel] at hevents
      rw [hcalls, course_succ, hanswer, hlater, ← hevents, delay_of_again hverdict]
      rfl

/-- An operation whose calls get these answers one after the other. -/
def inTurn (answers : Nat → Except ε α) (call : Nat) : Except ε α × Nat := (answers call, call + 1)

/-- The answers to calling over and over are those that are given in turn. -/
theorem answer_at_in_turn (answers : Nat → Except ε α) (n call : Nat) :
    answerAt (inTurn answers) n call = answers (call + n) := by
  induction n generalizing call with
  | zero => rfl
  | succ n ih =>
      show answerAt (inTurn answers) n (call + 1) = _
      rw [ih, Nat.add_right_comm]
      rfl

/-- The answer with this number, counted from zero, is the first that is not worth another call. -/
def SettledAt (classify : ε → Disposition) (answers : Nat → Except ε α) (k : Nat) : Prop :=
  (∀ m < k, Retryable classify (answers m)) ∧ ¬ Retryable classify (answers k)

/-- An error that is not worth another call is fatal. -/
theorem settled_of_not_retryable {answer : Except ε α} (calls : Nat)
    (h : ¬ Retryable classify answer) :
    settled classify calls answer = answer.mapError .fatal := by
  cases answer with
  | ok value => rfl
  | error error =>
      cases hclass : classify error with
      | stop =>
          simp only [settled, hclass]
          rfl
      | retry => exact absurd ⟨error, rfl, hclass⟩ h

/-- A policy calls an operation, whatever its answers are, and sleeps as long as `backoffDelay` says
after each call but the last. The calls end with the first answer that is not worth another call, or
at the limit, which is at least one call. In the first case the result is this answer, with its error
as fatal; in the other it is an error with the number of calls and the last cause. -/
theorem course_of_run (policy : RetryPolicy) (classify : ε → Disposition)
    (answers : Nat → Except ε α) :
    let run := policy.run classify (inTurn answers) 0
    let limit := max 1 policy.maxAttempts
    run.events = policy.course 0 answers (run.calls - 1) ∧
      (∀ k, SettledAt classify answers k → run.calls = min (k + 1) limit) ∧
      (∀ k < limit, SettledAt classify answers k → run.result = (answers k).mapError .fatal) ∧
      ((∀ m < limit, Retryable classify (answers m)) →
        run.calls = limit ∧ ∃ last, answers (limit - 1) = .error last ∧
          run.result = .error (.attemptsExceeded limit last)) := by
  have hanswer (n : Nat) : answerAt (inTurn answers) n 0 = answers n := by
    rw [answer_at_in_turn, Nat.zero_add]
  obtain ⟨n, hcalls, hlt, hbefore, hlast, hresult⟩ :=
    policy.answers_of_run classify (inTurn answers) 0
  have hevents := (policy.events_of_run_from classify (inTurn answers) 0 policy.maxAttempts 0).1
  simp only [hanswer] at hbefore hlast hresult hevents
  -- The last call is the first that is not worth another, unless the limit comes before it.
  have hmin : ∀ k, SettledAt classify answers k →
      n + 1 = min (k + 1) (max 1 policy.maxAttempts) := by
    rintro k ⟨hearlier, hsettled⟩
    rcases Nat.lt_trichotomy n k with hless | rfl | hmore
    · have hlimit := hlast (hearlier n hless)
      omega
    · omega
    · exact absurd (hbefore k hmore) hsettled
  refine ⟨hevents, fun k hk => hcalls.trans (hmin k hk), ?_, ?_⟩
  · intro k hk hsettled
    obtain rfl : n = k := by
      have hcount := hmin k hsettled
      omega
    rw [hresult, settled_of_not_retryable _ hsettled.2]
  · intro hall
    have hlimit := hlast (hall n hlt)
    obtain ⟨last, hanswer, hretry⟩ := hall n hlt
    refine ⟨hcalls.trans hlimit, last, ?_, ?_⟩
    · rw [← hlimit, Nat.add_sub_cancel, hanswer]
    · rw [hresult, hanswer, hlimit]
      simp only [settled, hretry]

/-- Three attempts at most. -/
def thrice : RetryPolicy := of 3 (Duration.ofMillis 500) (Duration.ofSecs 10)

/-- Two failures, and then a success. -/
def busyTwice (n : Nat) : Except String Nat := if n < 2 then .error "busy" else .ok n

/-- A success at the last attempt comes after two sleeps, and no other follows. -/
theorem course_of_busy_twice :
    SettledAt (fun _ => .retry) busyTwice 2 ∧
      (thrice.run (fun _ => .retry) (inTurn busyTwice) 0).result = .ok 2 ∧
      (thrice.run (fun _ => .retry) (inTurn busyTwice) 0).events =
        [.call (.error "busy"), .sleep (Duration.ofMillis 500), .call (.error "busy"),
          .sleep (Duration.ofMillis 1000), .call (.ok 2)] := by
  have hsettled : SettledAt (fun _ => .retry) busyTwice 2 := by
    refine ⟨fun m hm => ⟨"busy", if_pos hm, rfl⟩, ?_⟩
    rintro ⟨error, herror, -⟩
    cases herror
  obtain ⟨hevents, hcalls, hresult, -⟩ := course_of_run thrice (fun _ => .retry) busyTwice
  refine ⟨hsettled, hresult 2 (by decide) hsettled, ?_⟩
  have hsleeps : thrice.backoffDelay 0 = Duration.ofMillis 500 ∧
      thrice.backoffDelay 1 = Duration.ofMillis 1000 := by decide +kernel
  have hcount : (thrice.run (fun _ => .retry) (inTurn busyTwice) 0).calls = 3 :=
    (hcalls 2 hsettled).trans (by decide)
  rw [hevents, hcount]
  simp [course, List.range_succ, hsleeps, busyTwice]

/-- A policy does the same to two operations of which one is a view of the other. -/
theorem run_from_of_view {watched : τ → Except ε α × τ} {view : τ → σ}
    (hview : ∀ t, operation (view t) = ((watched t).1, view (watched t).2))
    (policy : RetryPolicy) (classify : ε → Disposition) (attempt remaining : Nat) (t : τ) :
    policy.runFrom classify operation attempt remaining (view t) =
      let run := policy.runFrom classify watched attempt remaining t
      ⟨run.result, run.events, view run.world⟩ := by
  have hsame {t next : τ} {answer : Except ε α} (hcall : watched t = (answer, next)) :
      operation (view t) = (answer, view next) := by
    rw [hview, hcall]
  fun_induction runFrom policy classify watched attempt remaining t with
  | case1 attempt remaining t value next hcall =>
      rw [runFrom.eq_def]
      simp only [hsame hcall]
  | case2 attempt remaining t error next hcall failure hverdict =>
      rw [runFrom.eq_def]
      simp only [hsame hcall, hverdict]
  | case3 attempt t error next hcall delay hverdict =>
      rw [runFrom.eq_def]
      simp only [hsame hcall, hverdict]
  | case4 attempt t error next hcall delay remaining hverdict ih =>
      rw [runFrom.eq_def]
      simp only [hsame hcall, hverdict, ih]
      rfl

end

end BulkLoad.RetryPolicy
