import BulkLoad.Proofs.Counters
import BulkLoad.Stats.Call
import Mathlib.Algebra.BigOperators.Pi

/-!
# What calls on shared counters come to

A call that returns raises each counter by its `Call.contribution`, whatever has been counted
before. A call breaks off if one of its times cannot be added, and what it has counted until then
stays: `Comes` says what each call comes to. After any sequence of calls every counter is therefore
the sum of the contributions of the calls that returned and of what is left of the others
(`counted_of_calls`), and the sum of the contributions alone only if no call has broken off.
-/

namespace BulkLoad.Stats

variable {s found after : Stats} {call : Call} {calls : List Call} {entries : List Entry}

/-- What a call adds to each counter if it returns. -/
def Call.contribution : Call → Counter → Nat
  | init _ => 0
  | addTotal units => fun
      | .total => units
      | _ => 0
  | failed units records => fun
      | .processed => units
      | .failedRecords | .totalRecords => records
      | _ => 0
  | succeeded units records => fun
      | .processed => units
      | .totalRecords => records
      | _ => 0
  | requestFailed records => fun
      | .failedRequest | .totalRequest => 1
      | .failedProcessed | .totalProcessed => records
      | _ => 0
  | requestSucceeded records latency respTime => fun
      | .totalRequest => 1
      | .latency => latency.totalNanos
      | .respTime => respTime.totalNanos
      | .totalProcessed => records
      | _ => 0

/-- What is left of a call that breaks off: the request, and its latency if it was the response time
that could not be added. -/
def Call.remains (found : Stats) : Call → Counter → Nat
  | requestSucceeded _ latency _ => fun
      | .totalRequest => 1
      | .latency =>
          if found.totalLatency.totalNanos + latency.totalNanos ≤ Duration.longest.totalNanos then
            latency.totalNanos
          else 0
      | _ => 0
  | _ => 0

/-- What comes of a call, given the counters that it finds. -/
inductive Comes (found : Stats) : Call → Update → Prop where
  | returned (call : Call) (after : Stats)
      (hcounters : after.counters = found.counters + counted call.contribution) :
      Comes found call (.complete after)
  | latency (records : Nat) (latency respTime : Duration)
      (hlong : Duration.longest.totalNanos < found.totalLatency.totalNanos + latency.totalNanos) :
      Comes found (.requestSucceeded records latency respTime)
        (.overflowed { found with totalRequest := found.totalRequest + 1 })
  | respTime (records : Nat) (latency respTime totalLatency : Duration)
      (hsum : totalLatency.totalNanos = found.totalLatency.totalNanos + latency.totalNanos)
      (hlong : Duration.longest.totalNanos < found.totalRespTime.totalNanos + respTime.totalNanos) :
      Comes found (.requestSucceeded records latency respTime)
        (.overflowed { found with totalRequest := found.totalRequest + 1, totalLatency })

/-- What the calls that returned have contributed. -/
def contributions (entries : List Entry) : Counter → Nat :=
  ((entries.filter fun e => e.update.returned).map fun e => e.call.contribution).sum

/-- What is left of the calls that broke off. -/
def leftovers (entries : List Entry) : Counter → Nat :=
  ((entries.filter fun e => !e.update.returned).map fun e => e.call.remains e.found).sum

/-! ## One call -/

/-- A call raises counters at zero by its contribution. -/
theorem counters_serve_default (call : Call) :
    (call.serve {}).stats.counters = counted call.contribution := by
  funext counter
  cases call with
  | init | addTotal | failed | succeeded | requestFailed =>
      cases counter <;>
        simp [Call.serve, Update.stats, counters, init, addTotal, failed, succeeded, requestFailed,
          Call.contribution, counted, Duration.zero, Duration.totalNanos]
  | requestSucceeded records latency respTime =>
      rw [Call.serve, request_of_default]
      cases counter <;> rfl

/-- An executed statement is counted, unless one of its times cannot be added. -/
theorem comes_of_request (found : Stats) (records : Nat) (latency respTime : Duration) :
    Comes found (.requestSucceeded records latency respTime)
      (found.requestSucceeded records latency respTime) := by
  cases hupdate : found.requestSucceeded records latency respTime with
  | complete after =>
      refine .returned _ after ?_
      rw [counters_request hupdate, ← counters_serve_default]
      rfl
  | overflowed after =>
      simp only [requestSucceeded] at hupdate
      split at hupdate
      next hnone =>
        cases hupdate
        exact .latency records latency respTime (Duration.longest_lt_of_add_eq_none hnone)
      next totalLatency hlatency =>
        split at hupdate
        next hnone =>
          cases hupdate
          exact .respTime records latency respTime totalLatency (Duration.totalNanos_add? hlatency)
            (Duration.longest_lt_of_add_eq_none hnone)
        next => cases hupdate

/-- What comes of a call that is served. -/
theorem comes_of_serve (found : Stats) (call : Call) : Comes found call (call.serve found) := by
  have hcontribution := counters_serve_default call
  cases call with
  | init now =>
      exact .returned _ _ ((counters_init found now).trans found.counters_add_counted_zero.symm)
  | addTotal units =>
      exact .returned _ _ (hcontribution ▸ counters_add_total found units)
  | failed units records =>
      exact .returned _ _ (hcontribution ▸ counters_failed found units records)
  | succeeded units records =>
      exact .returned _ _ (hcontribution ▸ counters_succeeded found units records)
  | requestFailed records =>
      exact .returned _ _ (hcontribution ▸ counters_request_failed found records)
  | requestSucceeded records latency respTime =>
      exact comes_of_request found records latency respTime

/-- A call raises the counters by its contribution, or by what is left of it. -/
theorem Comes.counters {update : Update} (h : Comes found call update) :
    update.stats.counters =
      found.counters +
        counted (if update.returned then call.contribution else call.remains found) := by
  cases h with
  | returned _ _ hcounters => exact hcounters
  | latency records latency respTime hlong =>
      funext counter
      cases counter <;>
        simp [Update.stats, Update.returned, Stats.counters, counted, Call.remains, hlong]
  | respTime records latency respTime totalLatency hsum hlong =>
      have hfits : found.totalLatency.totalNanos + latency.totalNanos ≤
          Duration.longest.totalNanos := by
        have hbound := totalLatency.totalNanos_lt
        rw [← hsum]
        exact Nat.le_of_lt_succ hbound
      funext counter
      cases counter <;>
        simp [Update.stats, Update.returned, Stats.counters, counted, Call.remains, hfits, hsum]

/-- The request of a call that breaks off stays counted. -/
theorem Comes.request_of_broken {update : Update} (h : Comes found call update)
    (hbroken : update.returned = false) : call.remains found .totalRequest = 1 := by
  cases h with
  | returned => cases hbroken
  | latency | respTime => rfl

/-! ## Sequences of calls -/

/-- Every call of a sequence comes to what it comes to alone. -/
theorem comes_of_journal (s : Stats) (calls : List Call) :
    ∀ e ∈ s.journal calls, Comes e.found e.call e.update := by
  induction calls generalizing s with
  | nil => nofun
  | cons call later ih =>
      intro e he
      rcases List.mem_cons.mp he with rfl | he
      · exact comes_of_serve s call
      · exact ih _ e he

/-- The calls of the journal are those that were made. -/
theorem calls_of_journal (s : Stats) (calls : List Call) :
    (s.journal calls).map Entry.call = calls := by
  induction calls generalizing s with
  | nil => rfl
  | cons call later ih => exact congrArg (call :: ·) (ih _)

/-- One more call counts its contribution, or what is left of it. -/
theorem counted_cons (e : Entry) (entries : List Entry) :
    contributions (e :: entries) + leftovers (e :: entries) =
      (if e.update.returned then e.call.contribution else e.call.remains e.found) +
        (contributions entries + leftovers entries) := by
  unfold contributions leftovers
  cases hreturned : e.update.returned with
  | true => simp [hreturned, add_assoc]
  | false => simp [hreturned, add_left_comm]

/-- After calls every counter has been raised by the contributions of those that returned and by
what is left of the others. -/
theorem counters_after (s : Stats) (calls : List Call) :
    (s.after calls).counters =
      s.counters + counted (contributions (s.journal calls) + leftovers (s.journal calls)) := by
  induction calls generalizing s with
  | nil => exact s.counters_add_counted_zero.symm
  | cons call later ih =>
      show ((call.serve s).stats.after later).counters = _
      rw [ih, (comes_of_serve s call).counters, add_assoc, ← counted_add, journal, counted_cons]

/-- Of every call that broke off a request is left. -/
theorem leftovers_total_request (hcomes : ∀ e ∈ entries, Comes e.found e.call e.update) :
    leftovers entries .totalRequest = entries.countP fun e => !e.update.returned := by
  have hones : ((entries.filter fun e => !e.update.returned).map fun e =>
      e.call.remains e.found .totalRequest) =
        (entries.filter fun e => !e.update.returned).map fun _ => 1 := by
    refine List.map_congr_left fun e he => ?_
    obtain ⟨hmem, hbroken⟩ := List.mem_filter.mp he
    exact (hcomes e hmem).request_of_broken (by simpa using hbroken)
  rw [leftovers, Pi.list_sum_apply, List.map_map, Function.comp_def, hones, List.map_const',
    List.sum_replicate, smul_eq_mul, mul_one, List.countP_eq_length_filter]

/-- Nothing is left over exactly if every call returned. -/
theorem leftovers_eq_zero_iff (hcomes : ∀ e ∈ entries, Comes e.found e.call e.update) :
    leftovers entries = 0 ↔ ∀ e ∈ entries, e.update.returned = true := by
  constructor
  · intro hzero e he
    have hcount := (leftovers_total_request hcomes).symm.trans (congrFun hzero .totalRequest)
    simpa using List.countP_eq_zero.mp hcount e he
  · intro hreturned
    have hnone : (entries.filter fun e => !e.update.returned) = [] :=
      List.filter_eq_nil_iff.mpr fun e he => by simp [hreturned e he]
    rw [leftovers, hnone]
    rfl

/-- The times of calls can all be added to the accumulated times. -/
structure Fits (s : Stats) (calls : List Call) : Prop where
  latency : s.totalLatency.totalNanos + (calls.map Call.contribution).sum .latency ≤
    Duration.longest.totalNanos
  respTime : s.totalRespTime.totalNanos + (calls.map Call.contribution).sum .respTime ≤
    Duration.longest.totalNanos

/-- A call whose times can be added returns, and the times of the others still fit. -/
theorem Fits.serve {later : List Call} (h : s.Fits (call :: later)) :
    (call.serve s).returned = true ∧ (call.serve s).stats.Fits later := by
  obtain ⟨hlatency, hrespTime⟩ := h
  rw [List.map_cons, List.sum_cons, Pi.add_apply, ← Nat.add_assoc] at hlatency hrespTime
  have hcomes := comes_of_serve s call
  generalize call.serve s = update at hcomes ⊢
  cases hcomes with
  | returned _ after hcounters =>
      have hlatencies : after.totalLatency.totalNanos =
          s.totalLatency.totalNanos + call.contribution .latency := congrFun hcounters .latency
      have hrespTimes : after.totalRespTime.totalNanos =
          s.totalRespTime.totalNanos + call.contribution .respTime := congrFun hcounters .respTime
      rw [← hlatencies] at hlatency
      rw [← hrespTimes] at hrespTime
      exact ⟨rfl, hlatency, hrespTime⟩
  | latency records latency respTime hlong =>
      exact absurd (Nat.le_trans (Nat.le_add_right _ _) hlatency) (Nat.not_le.mpr hlong)
  | respTime records latency respTime totalLatency hsum hlong =>
      exact absurd (Nat.le_trans (Nat.le_add_right _ _) hrespTime) (Nat.not_le.mpr hlong)

/-- Calls whose times can all be added return, and every counter has been raised by what they
contribute. -/
theorem counters_of_fits (h : s.Fits calls) :
    (s.after calls).counters = s.counters + counted (calls.map Call.contribution).sum := by
  induction calls generalizing s with
  | nil => exact s.counters_add_counted_zero.symm
  | cons call later ih =>
      obtain ⟨hreturned, hlater⟩ := h.serve
      show ((call.serve s).stats.after later).counters = _
      rw [ih hlater, (comes_of_serve s call).counters, if_pos hreturned, List.map_cons,
        List.sum_cons, counted_add, add_assoc]

/-- For every sequence of calls, from whatever counters on, each is served: it returns and
contributes what it counts, or it breaks off because one of its times cannot be added. A call that
breaks off leaves its request counted, and its latency if that could be added, and nothing else. So
every counter has been raised, as a word, by the contributions of the calls that returned and by
what is left of the others. Where the numbers fit the counters, these show them, and they show the
contributions alone exactly if every call returned. -/
theorem counted_of_calls (s : Stats) (calls : List Call) :
    (s.journal calls).map Entry.call = calls ∧
      (∀ e ∈ s.journal calls, Comes e.found e.call e.update) ∧
      (s.after calls).counters =
        s.counters + counted (contributions (s.journal calls) + leftovers (s.journal calls)) ∧
      ((∀ counter : Counter, counter.Fits (s.numbers counter +
          (contributions (s.journal calls) counter + leftovers (s.journal calls) counter))) →
        (s.after calls).numbers =
            s.numbers + (contributions (s.journal calls) + leftovers (s.journal calls)) ∧
          ((s.after calls).numbers = s.numbers + contributions (s.journal calls) ↔
            ∀ e ∈ s.journal calls, e.update.returned = true)) := by
  have hcomes := comes_of_journal s calls
  have hcounters := counters_after s calls
  refine ⟨calls_of_journal s calls, hcomes, hcounters, fun hfits => ?_⟩
  have hnumbers : (s.after calls).numbers =
      s.numbers + (contributions (s.journal calls) + leftovers (s.journal calls)) :=
    funext fun counter => numbers_of_counted hcounters (hfits counter)
  refine ⟨hnumbers, ?_⟩
  rw [hnumbers, ← leftovers_eq_zero_iff hcomes, add_right_inj, add_eq_left]

/-- Two executed statements whose response times do not fit together. -/
def overlong : List Call :=
  [.requestSucceeded 1 .zero .longest, .requestSucceeded 1 (.ofNanos 5) (.ofNanos 1)]

/-- The second of two calls breaks off. Its request and its latency stay counted. -/
theorem counted_of_overlong :
    ((({} : Stats).journal overlong).map fun e => e.update.returned) = [true, false] ∧
      (∀ counter : Counter, counter.Fits (({} : Stats).numbers counter +
        (contributions (({} : Stats).journal overlong) counter +
          leftovers (({} : Stats).journal overlong) counter))) ∧
      (({} : Stats).after overlong).numbers =
        ({} : Stats).numbers + (contributions (({} : Stats).journal overlong) +
          leftovers (({} : Stats).journal overlong)) ∧
      leftovers (({} : Stats).journal overlong) .totalRequest = 1 ∧
      leftovers (({} : Stats).journal overlong) .latency = 5 := by
  have hfits : ∀ counter : Counter, counter.Fits (({} : Stats).numbers counter +
      (contributions (({} : Stats).journal overlong) counter +
        leftovers (({} : Stats).journal overlong) counter)) := by
    intro counter
    cases counter <;> decide +kernel
  obtain ⟨-, -, -, hshown⟩ := counted_of_calls {} overlong
  exact ⟨by decide +kernel, hfits, (hshown hfits).1, by decide +kernel, by decide +kernel⟩

/-- A call that breaks off does not always leave the counters as it found them, and the counters are
not always the sum of what the calls that returned have contributed. -/
theorem not_all_or_nothing :
    (¬ ∀ calls, ∀ e ∈ ({} : Stats).journal calls,
        e.update.returned = false → e.update.stats = e.found) ∧
      ¬ ∀ calls, (({} : Stats).after calls).numbers =
        contributions (({} : Stats).journal calls) := by
  constructor
  · intro h
    exact absurd (h overlong) (by decide +kernel)
  · intro h
    exact absurd (congrFun (h overlong) .totalRequest) (by decide +kernel)

end BulkLoad.Stats
