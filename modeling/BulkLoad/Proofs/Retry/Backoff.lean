import BulkLoad.Retry

/-!
# How the delays of a policy grow

A policy doubles its delay with every attempt and caps it at its longest delay. Only the last 64
bits of the milliseconds are kept. `delays_rise_iff` says what this comes to: no delay is longer
than the longest, and the delays rise from the base delay on exactly if the last doubling, capped,
still fits 64 bits of milliseconds. Otherwise the first delay that no longer fits is shorter than
the one before it, or than the base delay if it is the first of all (`not_all_delays_rise`).
-/

namespace BulkLoad.RetryPolicy

variable {policy : RetryPolicy} {attempt : Nat}

/-- The delay after the attempt with this number, counted from zero, in milliseconds, before it is
cut to 64 bits. -/
def uncutMillis (policy : RetryPolicy) (attempt : Nat) : Nat :=
  min (policy.baseDelay.millis * Nat.pow 2 (min attempt 6)) policy.maxDelay.millis

/-! ## Delays before they are cut -/

/-- The delay is what 64 bits keep of the milliseconds. -/
theorem backoff_delay_eq (policy : RetryPolicy) (attempt : Nat) :
    policy.backoffDelay attempt =
      Duration.ofMillis (policy.uncutMillis attempt % 18446744073709551616) := by
  unfold backoffDelay
  split
  next hzero =>
    rw [uncutMillis, Duration.millis_of_is_zero hzero, Nat.zero_mul, Nat.zero_min]
    rfl
  next =>
    -- Six doublings of the longest span stay far below 128 bits.
    have hpow : Nat.pow 2 (min attempt 6) ≤ 64 :=
      Nat.pow_le_pow_right Nat.two_pos (Nat.min_le_right attempt 6)
    have hmillis : policy.baseDelay.millis < 18446744073709551616 * 1000 := by
      have := policy.baseDelay.totalNanos_lt
      rw [Duration.millis_eq]
      omega
    have hdoubled := Nat.mul_le_mul (Nat.le_of_lt hmillis) hpow
    rw [uncutMillis]
    dsimp only
    rw [Nat.min_eq_left (Nat.le_trans hdoubled (by decide))]

/-- The delay in nanoseconds. -/
theorem backoff_nanos (policy : RetryPolicy) (attempt : Nat) :
    (policy.backoffDelay attempt).totalNanos =
      policy.uncutMillis attempt % 18446744073709551616 * 1000000 := by
  rw [backoff_delay_eq]
  exact Duration.totalNanos_ofMillis (Nat.mod_lt _ (by decide))

/-- The first delay is the base delay, if that is not too long. -/
theorem uncut_zero (policy : RetryPolicy) :
    policy.uncutMillis 0 = min policy.baseDelay.millis policy.maxDelay.millis := by
  show min (policy.baseDelay.millis * 1) _ = _
  rw [Nat.mul_one]

/-- Delays that are not cut rise. -/
theorem uncut_mono (policy : RetryPolicy) {n m : Nat} (h : n ≤ m) :
    policy.uncutMillis n ≤ policy.uncutMillis m := by
  have hpow : Nat.pow 2 (min n 6) ≤ Nat.pow 2 (min m 6) :=
    Nat.pow_le_pow_right Nat.two_pos (by omega)
  have hdoubled := Nat.mul_le_mul_left policy.baseDelay.millis hpow
  unfold uncutMillis
  omega

/-- From one attempt to the next a delay is at most doubled. -/
theorem uncut_succ_le (policy : RetryPolicy) (attempt : Nat) :
    policy.uncutMillis (attempt + 1) ≤ 2 * policy.uncutMillis attempt := by
  have hpow : Nat.pow 2 (min (attempt + 1) 6) ≤ Nat.pow 2 (min attempt 6) * 2 := by
    show _ ≤ Nat.pow 2 (min attempt 6 + 1)
    exact Nat.pow_le_pow_right Nat.two_pos (by omega)
  have hdoubled := Nat.mul_le_mul_left policy.baseDelay.millis hpow
  rw [← Nat.mul_assoc] at hdoubled
  unfold uncutMillis
  omega

/-- After the sixth doubling a delay stays as it is. -/
theorem uncut_le_last (policy : RetryPolicy) (attempt : Nat) :
    policy.uncutMillis attempt ≤ policy.uncutMillis 6 := by
  have hsame : policy.uncutMillis attempt = policy.uncutMillis (min attempt 6) := by
    rw [uncutMillis, uncutMillis, Nat.min_assoc, Nat.min_self]
  rw [hsame]
  exact policy.uncut_mono (Nat.min_le_right attempt 6)

/-- The last delay is the base delay doubled six times, if that is not too long. -/
theorem uncut_last (policy : RetryPolicy) :
    policy.uncutMillis 6 = min (64 * policy.baseDelay.millis) policy.maxDelay.millis := by
  show min (policy.baseDelay.millis * 64) _ = _
  rw [Nat.mul_comm]

/-! ## Delays that are cut -/

/-- No delay is longer than the longest. -/
theorem backoff_le_max (policy : RetryPolicy) (attempt : Nat) :
    (policy.backoffDelay attempt).totalNanos ≤ policy.maxDelay.totalNanos := by
  have hcut := Nat.mod_le (policy.uncutMillis attempt) 18446744073709551616
  have hcap : policy.uncutMillis attempt ≤ policy.maxDelay.millis := Nat.min_le_right _ _
  have hmillis := policy.maxDelay.millis_eq
  rw [backoff_nanos]
  omega

/-- Of two delays that follow each other, where the first fits and the second does not, the second
is shorter. -/
theorem backoff_succ_lt (hfits : policy.uncutMillis attempt < 18446744073709551616)
    (hcut : 18446744073709551616 ≤ policy.uncutMillis (attempt + 1)) :
    (policy.backoffDelay (attempt + 1)).totalNanos < (policy.backoffDelay attempt).totalNanos := by
  have hdouble := policy.uncut_succ_le attempt
  rw [backoff_nanos, backoff_nanos]
  omega

/-- The delays rise, and none is shorter than the base delay unless the longest is, in whole
milliseconds. -/
def DelaysRise (policy : RetryPolicy) : Prop :=
  ∀ n m, n ≤ m →
    (policy.backoffDelay n).totalNanos ≤ (policy.backoffDelay m).totalNanos ∧
      min policy.baseDelay.millis policy.maxDelay.millis * 1000000 ≤
        (policy.backoffDelay n).totalNanos

/-- Delays that all fit rise. -/
theorem delays_rise_of_lt (h : policy.uncutMillis 6 < 18446744073709551616) :
    policy.DelaysRise := by
  have hkept (k : Nat) : (policy.backoffDelay k).totalNanos = policy.uncutMillis k * 1000000 := by
    rw [backoff_nanos, Nat.mod_eq_of_lt (Nat.lt_of_le_of_lt (policy.uncut_le_last k) h)]
  intro n m hnm
  rw [hkept, hkept, ← uncut_zero]
  exact ⟨Nat.mul_le_mul_right _ (policy.uncut_mono hnm),
    Nat.mul_le_mul_right _ (policy.uncut_mono (Nat.zero_le n))⟩

/-- Delays that rise all fit. -/
theorem uncut_lt_of_rise (h : policy.DelaysRise) (attempt : Nat) :
    policy.uncutMillis attempt < 18446744073709551616 := by
  induction attempt with
  | zero =>
      have hbase := (h 0 0 (Nat.le_refl 0)).2
      rw [← uncut_zero, backoff_nanos] at hbase
      omega
  | succ attempt ih =>
      have hrise := (h attempt (attempt + 1) (Nat.le_succ attempt)).1
      exact Nat.lt_of_not_le fun hcut => Nat.not_lt.mpr hrise (backoff_succ_lt ih hcut)

/-- No delay is longer than the longest of the policy. The delays rise from the base delay on, or
from the longest if that is shorter, exactly if the sixth doubling of the base delay, or else the
longest delay, has milliseconds that fit 64 bits. -/
theorem delays_rise_iff (policy : RetryPolicy) :
    (∀ n, (policy.backoffDelay n).totalNanos ≤ policy.maxDelay.totalNanos) ∧
      (policy.DelaysRise ↔
        min (64 * policy.baseDelay.millis) policy.maxDelay.millis < 18446744073709551616) := by
  refine ⟨policy.backoff_le_max, ?_⟩
  rw [← uncut_last]
  exact ⟨fun h => uncut_lt_of_rise h 6, delays_rise_of_lt⟩

/-- The delays of the policy for statements double up to ten seconds. -/
example : (List.range 6).map (forStatements.backoffDelay · |>.millis) =
    [500, 1000, 2000, 4000, 8000, 10000] := by decide +kernel

/-- A policy whose delays are always `2 ^ 64` milliseconds, if they are not cut. -/
def overlong : RetryPolicy :=
  of 3 ⟨18446744073709551, 616000000, by decide, by decide⟩
    ⟨18446744073709551, 616000000, by decide, by decide⟩

/-- Not every policy that is made of a base delay and a longest delay has delays that rise from the
base delay on: cut to 64 bits, the delays of an overlong policy are empty. -/
theorem not_all_delays_rise :
    (overlong.backoffDelay 0 = Duration.zero ∧
      min overlong.baseDelay.millis overlong.maxDelay.millis = 18446744073709551616) ∧
      ¬ ∀ attempts base longest, (of attempts base longest).DelaysRise := by
  have hcut : overlong.backoffDelay 0 = Duration.zero ∧
      min overlong.baseDelay.millis overlong.maxDelay.millis = 18446744073709551616 := by
    decide +kernel
  refine ⟨hcut, fun h => ?_⟩
  have hbase := (h 3 overlong.baseDelay overlong.maxDelay 0 0 (Nat.le_refl 0)).2
  exact absurd hbase (by decide +kernel)

end BulkLoad.RetryPolicy
