import BulkLoad.Importer
import Mathlib.Algebra.Group.Pi.Basic
import Mathlib.Algebra.GroupWithZero.Nat
import Mathlib.Data.UInt

/-!
# What updates add to the counters

Apart from the time of the start a `Stats` is its counters (`eq_of_counters`), and no update looks
at what has been counted before: it raises each counter by what it raises counters at zero
(`counters_account`, `counters_settle`). Only accumulated times can be too long to be added.
Counters are added as words. What they have been raised by in all is a matter of numbers, of which
they show what words can hold (`counted`), and all of it as long as it fits (`numbers_of_counted`).
-/

namespace BulkLoad

/-- One of the counters. -/
inductive Counter where
  | total
  | processed
  | totalRecords
  | failedRecords
  | totalRequest
  | failedRequest
  | totalProcessed
  | failedProcessed
  | latency
  | respTime
deriving DecidableEq

/-- What a counter holds: a word of 64 bits, or accumulated time in nanoseconds. -/
abbrev Counter.Value : Counter → Type
  | .latency | .respTime => Nat
  | .total | .processed | .totalRecords | .failedRecords | .totalRequest | .failedRequest
  | .totalProcessed | .failedProcessed => UInt64

instance : (counter : Counter) → AddCommMonoid counter.Value
  | .latency | .respTime => inferInstanceAs (AddCommMonoid Nat)
  | .total | .processed | .totalRecords | .failedRecords | .totalRequest | .failedRequest
  | .totalProcessed | .failedProcessed => inferInstanceAs (AddCommMonoid UInt64)

/-- What all counters hold. Counts are added counter by counter. -/
abbrev Counts : Type := (counter : Counter) → counter.Value

/-- What the counters hold of these numbers. -/
def counted (numbers : Counter → Nat) : Counts
  | .total => .ofNat (numbers .total)
  | .processed => .ofNat (numbers .processed)
  | .totalRecords => .ofNat (numbers .totalRecords)
  | .failedRecords => .ofNat (numbers .failedRecords)
  | .totalRequest => .ofNat (numbers .totalRequest)
  | .failedRequest => .ofNat (numbers .failedRequest)
  | .totalProcessed => .ofNat (numbers .totalProcessed)
  | .failedProcessed => .ofNat (numbers .failedProcessed)
  | .latency => numbers .latency
  | .respTime => numbers .respTime

/-- Whether a number fits the counter. -/
def Counter.Fits : Counter → Nat → Prop
  | .latency, _ | .respTime, _ => True
  | .total, n | .processed, n | .totalRecords, n | .failedRecords, n | .totalRequest, n
  | .failedRequest, n | .totalProcessed, n | .failedProcessed, n => n < 18446744073709551616

instance : (counter : Counter) → (n : Nat) → Decidable (counter.Fits n)
  | .latency, _ | .respTime, _ => inferInstanceAs (Decidable True)
  | .total, n | .processed, n | .totalRecords, n | .failedRecords, n | .totalRequest, n
  | .failedRequest, n | .totalProcessed, n | .failedProcessed, n =>
      inferInstanceAs (Decidable (n < 18446744073709551616))

/-- Nothing is counted of nothing. -/
theorem counted_zero : counted 0 = 0 := by
  funext counter
  cases counter <;> rfl

/-- Numbers may be added before they are counted. -/
theorem counted_add (numbers others : Counter → Nat) :
    counted (numbers + others) = counted numbers + counted others := by
  funext counter
  cases counter <;> first | rfl | exact UInt64.ofNat_add _ _

namespace Stats

/-- The counters, with accumulated times in nanoseconds. -/
def counters (s : Stats) : Counts
  | .total => s.total
  | .processed => s.processed
  | .totalRecords => s.totalRecords
  | .failedRecords => s.failedRecords
  | .totalRequest => s.totalRequest
  | .failedRequest => s.failedRequest
  | .totalProcessed => s.totalProcessed
  | .failedProcessed => s.failedProcessed
  | .latency => s.totalLatency.totalNanos
  | .respTime => s.totalRespTime.totalNanos

/-- The counters as numbers. -/
def numbers (s : Stats) : Counter → Nat
  | .total => s.total.toNat
  | .processed => s.processed.toNat
  | .totalRecords => s.totalRecords.toNat
  | .failedRecords => s.failedRecords.toNat
  | .totalRequest => s.totalRequest.toNat
  | .failedRequest => s.failedRequest.toNat
  | .totalProcessed => s.totalProcessed.toNat
  | .failedProcessed => s.failedProcessed.toNat
  | .latency => s.totalLatency.totalNanos
  | .respTime => s.totalRespTime.totalNanos

/-- The counters hold themselves as numbers. -/
theorem counted_numbers (s : Stats) : counted s.numbers = s.counters := by
  funext counter
  cases counter <;> first | rfl | exact UInt64.ofNat_toNat

/-- A counter shows a number that fits it. -/
theorem number_of_counted {s : Stats} {numbers : Counter → Nat} (h : s.counters = counted numbers)
    {counter : Counter} (hfits : counter.Fits (numbers counter)) :
    s.numbers counter = numbers counter := by
  have hcounter := congrFun h counter
  cases counter with
  | latency | respTime => exact hcounter
  | total | processed | totalRecords | failedRecords | totalRequest | failedRequest
  | totalProcessed | failedProcessed =>
      exact (congrArg UInt64.toNat hcounter).trans (UInt64.toNat_ofNat_of_lt' hfits)

/-- What counters have been raised by shows where the sum fits. -/
theorem numbers_of_counted {s after : Stats} {gain : Counter → Nat}
    (h : after.counters = s.counters + counted gain) {counter : Counter}
    (hfits : counter.Fits (s.numbers counter + gain counter)) :
    after.numbers counter = s.numbers counter + gain counter := by
  have hsum : after.counters = counted (s.numbers + gain) := by
    rw [h, counted_add, counted_numbers]
  exact number_of_counted hsum hfits

/-- Nothing has been counted at first. -/
theorem counters_default : (default : Stats).counters = 0 := by
  funext counter
  cases counter <;> rfl

/-- Counting nothing raises no counter. -/
theorem counters_add_counted_zero (s : Stats) : s.counters + counted 0 = s.counters := by
  rw [counted_zero, add_zero]

/-- Counters at first add nothing. -/
theorem counters_add_default (s : Stats) :
    s.counters + (default : Stats).counters = s.counters := by
  rw [counters_default, add_zero]

/-- Apart from the time of the start there is nothing but the counters. -/
theorem eq_of_counters {s other : Stats} (h : s.counters = other.counters) :
    { s with startTime := none } = { other with startTime := none } := by
  have hcounter (counter : Counter) := congrFun h counter
  obtain ⟨start, total, processed, totalRecords, failedRecords, totalRequest, failedRequest,
    totalProcessed, failedProcessed, latency, respTime⟩ := s
  obtain rfl := hcounter .total
  obtain rfl := hcounter .processed
  obtain rfl := hcounter .totalRecords
  obtain rfl := hcounter .failedRecords
  obtain rfl := hcounter .totalRequest
  obtain rfl := hcounter .failedRequest
  obtain rfl := hcounter .totalProcessed
  obtain rfl := hcounter .failedProcessed
  obtain rfl := Duration.eq_of_totalNanos_eq (hcounter .latency)
  obtain rfl := Duration.eq_of_totalNanos_eq (hcounter .respTime)
  rfl

/-! ## Updates -/

/-- The time of the start is not counted. -/
theorem counters_init (s : Stats) (now : Nat) : (s.init now).counters = s.counters := by
  unfold init
  split <;> rfl

/-- Announcing units. -/
theorem counters_add_total (s : Stats) (units : Nat) :
    (s.addTotal units).counters = s.counters + (addTotal {} units).counters := by
  funext counter
  cases counter <;> simp [counters, addTotal, Duration.zero, Duration.totalNanos]

/-- Announcing nothing changes nothing. -/
theorem add_total_zero (s : Stats) : s.addTotal 0 = s := by
  have hsame : s.total + .ofNat 0 = s.total := UInt64.add_zero s.total
  rw [addTotal, hsame]

/-- Counting units and records on which no importer failed. -/
theorem counters_succeeded (s : Stats) (units records : Nat) :
    (s.succeeded units records).counters = s.counters + (succeeded {} units records).counters := by
  funext counter
  cases counter <;> simp [counters, succeeded, Duration.zero, Duration.totalNanos]

/-- Counting units and records of which some importer failed. -/
theorem counters_failed (s : Stats) (units records : Nat) :
    (s.failed units records).counters = s.counters + (failed {} units records).counters := by
  funext counter
  cases counter <;> simp [counters, failed, Duration.zero, Duration.totalNanos]

/-- Counting a failed statement. -/
theorem counters_request_failed (s : Stats) (records : Nat) :
    (s.requestFailed records).counters = s.counters + (requestFailed {} records).counters := by
  funext counter
  cases counter <;> simp [counters, requestFailed, Duration.zero, Duration.totalNanos]

/-- No time is always added. -/
theorem zero_add? (d : Duration) : Duration.zero.add? d = some d := by
  obtain ⟨secs, nanos, hsecs, hnanos⟩ := d
  have hcarry : nanos / 1000000000 = 0 := Nat.div_eq_of_lt hnanos
  simp only [Duration.add?, Duration.zero, Nat.zero_add, hcarry, Nat.add_zero, hsecs, dite_true,
    Nat.mod_eq_of_lt hnanos]

/-- The times of the first executed statement fit. -/
theorem request_of_default (records : Nat) (latency respTime : Duration) :
    requestSucceeded {} records latency respTime =
      .complete { totalRequest := 1, totalProcessed := .ofNat records, totalLatency := latency,
                  totalRespTime := respTime } := by
  simp only [requestSucceeded, zero_add?, UInt64.zero_add]

/-- Counting an executed statement whose times can be added. -/
theorem counters_request {s after : Stats} {records : Nat} {latency respTime : Duration}
    (h : s.requestSucceeded records latency respTime = .complete after) :
    after.counters =
      s.counters + (requestSucceeded {} records latency respTime).stats.counters := by
  rw [request_of_default]
  simp only [requestSucceeded] at h
  split at h
  · cases h
  · rename_i totalLatency hlatency
    split at h
    · cases h
    · rename_i totalRespTime hrespTime
      cases h
      funext counter
      cases counter <;>
        simp [counters, Update.stats, Duration.totalNanos_add? hlatency,
          Duration.totalNanos_add? hrespTime]

end Stats

/-- Accounting for a batch. -/
theorem counters_settle (s : Stats) (units : Nat) (marks : List Bool) :
    (settleBatch s units marks).counters =
      s.counters + (settleBatch {} units marks).counters := by
  simp only [settleBatch]
  split
  · rw [Stats.counters_succeeded, Stats.counters_failed, add_assoc, ← Stats.counters_succeeded]
  · exact Stats.counters_succeeded s _ _

/-- What a portion with this outcome raises the counters by. -/
def Portion.raised (p : Portion) (outcome : ImportOutcome) : Counts :=
  (p.account outcome {} []).1.stats.counters

/-- Accounting for a portion whose times can be added. -/
theorem counters_account {p : Portion} {outcome : ImportOutcome} {s after : Stats}
    {before marks : List Bool} (h : p.account outcome s before = (.complete after, marks)) :
    after.counters = s.counters + p.raised outcome := by
  cases outcome with
  | imported result =>
      simp only [Portion.account, Portion.raised] at h ⊢
      split at h
      · rw [if_pos ‹_›]
        exact Stats.counters_request (Prod.mk.inj h).1
      · rw [if_neg ‹_›]
        cases h
        exact s.counters_add_default.symm
  | failed error =>
      cases h
      exact Stats.counters_request_failed s _
  | panicked message =>
      cases h
      exact s.counters_add_default.symm

end BulkLoad
