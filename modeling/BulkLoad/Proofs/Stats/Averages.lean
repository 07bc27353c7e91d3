import BulkLoad.Proofs.Stats.Calls

/-!
# Average times

What a request takes on average is the accumulated time divided by the number of requests that have
succeeded, in whole nanoseconds, rounded down. The division itself is exact whatever is accumulated
(`average_nanos`), but it is not made for a number of requests that takes more than 32 bits: the
averages are then empty. `true_averages_iff` says when they are the true ones all the same.
-/

namespace BulkLoad.Stats

/-! ## One average -/

/-- The number of requests that have succeeded. -/
def succeededRequests (s : Stats) : Nat := s.totalRequest.toNat - s.failedRequest.toNat

/-- The averages are the accumulated times divided by the number of requests that have succeeded, in
nanoseconds, rounded down. -/
structure TrueAverages (s : Stats) : Prop where
  latency : s.avgLatency.totalNanos = s.totalLatency.totalNanos / s.succeededRequests
  respTime : s.avgRespTime.totalNanos = s.totalRespTime.totalNanos / s.succeededRequests

/-- The share of one succeeded request in nanoseconds. -/
theorem average_nanos (s : Stats) (accumulated : Duration) :
    (s.average accumulated).totalNanos =
      if s.succeededRequests < 4294967296 then accumulated.totalNanos / s.succeededRequests
      else 0 := by
  show (if s.succeededRequests < 4294967296 then accumulated.divide s.succeededRequests
    else Duration.zero).totalNanos = _
  split
  next => exact accumulated.totalNanos_divide s.succeededRequests
  next => rfl

/-- The share of one succeeded request is the true one if the number of requests fits 32 bits, and
otherwise only if it is less than a nanosecond. -/
theorem average_eq_iff (s : Stats) (accumulated : Duration) :
    (s.average accumulated).totalNanos = accumulated.totalNanos / s.succeededRequests ↔
      s.succeededRequests < 4294967296 ∨ accumulated.totalNanos < s.succeededRequests := by
  rw [average_nanos]
  split
  next hfits => exact iff_of_true rfl (.inl hfits)
  next hlarge =>
    rw [eq_comm, Nat.div_eq_zero_iff]
    omega

/-! ## Many requests -/

/-- A statement that is executed in a second. -/
def prompt : Call := .requestSucceeded 1 (.ofSecs 1) (.ofSecs 1)

/-- What such a statement counts. -/
theorem contribution_prompt :
    prompt.contribution .totalRequest = 1 ∧ prompt.contribution .failedRequest = 0 ∧
      prompt.contribution .latency = 1000000000 ∧ prompt.contribution .respTime = 1000000000 := by
  decide +kernel

/-- The times of such statements fit for a long time, and each is counted. -/
theorem numbers_of_prompt {n : Nat} (h : n ≤ 4294967296) (counter : Counter) :
    (({} : Stats).after (List.replicate n prompt)).numbers counter =
      n * prompt.contribution counter := by
  obtain ⟨-, -, hlatency, hrespTime⟩ := contribution_prompt
  have hsum (counter : Counter) : ((List.replicate n prompt).map Call.contribution).sum counter =
      n * prompt.contribution counter := by
    rw [List.map_replicate, List.sum_replicate, Pi.smul_apply, smul_eq_mul]
  have hlongest : Duration.longest.totalNanos = 18446744073709551615999999999 := by decide +kernel
  have htimes : ({} : Stats).totalLatency.totalNanos = 0 ∧
      ({} : Stats).totalRespTime.totalNanos = 0 := by decide +kernel
  have hlong : ({} : Stats).Fits (List.replicate n prompt) := by
    constructor
    · rw [hsum, htimes.1, hlatency, hlongest]
      omega
    · rw [hsum, htimes.2, hrespTime, hlongest]
      omega
  have hzero : ({} : Stats).numbers counter = 0 := by cases counter <;> rfl
  have hfits : counter.Fits (n * prompt.contribution counter) := by
    cases counter <;> simp only [Counter.Fits, prompt, Call.contribution] <;> omega
  have hgain : ({} : Stats).numbers counter +
      ((List.replicate n prompt).map Call.contribution).sum counter =
        n * prompt.contribution counter := by
    rw [hsum, hzero, Nat.zero_add]
  rw [numbers_of_counted (counters_of_fits hlong) (hgain ▸ hfits), hgain]

/-- All such statements have succeeded, and a second has been accumulated for each. -/
theorem accumulated_of_prompt {n : Nat} (h : n ≤ 4294967296) :
    (({} : Stats).after (List.replicate n prompt)).succeededRequests = n ∧
      (({} : Stats).after (List.replicate n prompt)).totalLatency.totalNanos = n * 1000000000 := by
  obtain ⟨hrequest, hfailed, hlatency, -⟩ := contribution_prompt
  have hnumbers := numbers_of_prompt h
  constructor
  · show Stats.numbers _ .totalRequest - Stats.numbers _ .failedRequest = n
    rw [hnumbers, hnumbers, hrequest, hfailed, Nat.mul_one, Nat.mul_zero, Nat.sub_zero]
  · show Stats.numbers _ .latency = _
    rw [hnumbers, hlatency]

/-! ## When the averages are the true ones -/

/-- Whatever has been counted and accumulated, the averages are the true ones exactly if the number
of requests that have succeeded fits 32 bits, or neither accumulated time has a nanosecond for each
of them. -/
theorem true_averages_iff (s : Stats) :
    s.TrueAverages ↔ s.succeededRequests < 4294967296 ∨
      (s.totalLatency.totalNanos < s.succeededRequests ∧
        s.totalRespTime.totalNanos < s.succeededRequests) := by
  rw [or_and_left, ← average_eq_iff, ← average_eq_iff]
  exact ⟨fun h => ⟨h.latency, h.respTime⟩, fun h => ⟨h.1, h.2⟩⟩

/-- Two of three requests have succeeded, and each has half of the accumulated time. -/
example :
    avgLatency { totalRequest := 3, failedRequest := 1, totalLatency := .ofMillis 40 } =
      .ofMillis 20 := by decide +kernel

/-- After `2 ^ 32` statements that are executed in a second each, a second has been accumulated for
each of them, and the average is empty. So not all counters that calls lead to have the true
averages. -/
theorem not_all_true_averages :
    (({} : Stats).after (List.replicate 4294967296 prompt)).succeededRequests = 4294967296 ∧
      (({} : Stats).after (List.replicate 4294967296 prompt)).totalLatency.totalNanos =
        4294967296 * 1000000000 ∧
      (({} : Stats).after (List.replicate 4294967296 prompt)).avgLatency.totalNanos = 0 ∧
      ¬ ∀ calls, 0 < (({} : Stats).after calls).succeededRequests →
        (({} : Stats).after calls).TrueAverages := by
  obtain ⟨hrequests, hlatency⟩ := accumulated_of_prompt (Nat.le_refl 4294967296)
  generalize List.replicate 4294967296 prompt = calls at hrequests hlatency ⊢
  have haverage : (({} : Stats).after calls).avgLatency.totalNanos = 0 := by
    rw [avgLatency, average_nanos, hrequests, if_neg (Nat.lt_irrefl _)]
  refine ⟨hrequests, hlatency, haverage, fun hall => ?_⟩
  have htrue := (hall calls (hrequests ▸ Nat.succ_pos _)).latency
  rw [haverage, hlatency, hrequests, Nat.mul_div_cancel_left _ (Nat.succ_pos _)] at htrue
  cases htrue

end BulkLoad.Stats
