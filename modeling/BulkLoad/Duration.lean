/-!
# Time spans

A `Duration` is a span of whole seconds and remaining nanoseconds. The seconds fit 64 bits and the
nanoseconds stay below one second, so every span has exactly one pair (`eq_of_totalNanos_eq`).
Addition is partial: a sum whose seconds no longer fit is refused.
-/

namespace BulkLoad

/-- A span of time in whole seconds and remaining nanoseconds. -/
structure Duration where
  secs : Nat
  nanos : Nat
  secs_lt : secs < 18446744073709551616
  nanos_lt : nanos < 1000000000
deriving DecidableEq

namespace Duration

/-- The empty span. -/
def zero : Duration := ⟨0, 0, by decide, by decide⟩

instance : Inhabited Duration := ⟨zero⟩

/-- The longest span. -/
def longest : Duration := ⟨18446744073709551615, 999999999, by decide, by decide⟩

/-- The whole span in nanoseconds. -/
def totalNanos (d : Duration) : Nat := d.secs * 1000000000 + d.nanos

/-- The span of this many nanoseconds, or the longest span if there are too many. -/
def ofNanos (n : Nat) : Duration :=
  if h : n / 1000000000 < 18446744073709551616 then
    ⟨n / 1000000000, n % 1000000000, h, Nat.mod_lt _ (by decide)⟩
  else longest

/-- The span of this many milliseconds, or the longest span if there are too many. -/
def ofMillis (n : Nat) : Duration := ofNanos (n * 1000000)

/-- The span of this many seconds, or the longest span if there are too many. -/
def ofSecs (n : Nat) : Duration := ofNanos (n * 1000000000)

/-- The span in whole milliseconds, rounded down. -/
def millis (d : Duration) : Nat := d.secs * 1000 + d.nanos / 1000000

/-- Whether the span is empty. -/
def isZero (d : Duration) : Bool := d.secs == 0 && d.nanos == 0

/-- The sum of two spans, with nanoseconds carried into seconds. `none` when the seconds no longer
fit. -/
def add? (a b : Duration) : Option Duration :=
  let nanos := a.nanos + b.nanos
  let secs := a.secs + b.secs + nanos / 1000000000
  if h : secs < 18446744073709551616 then
    some ⟨secs, nanos % 1000000000, h, Nat.mod_lt _ (by decide)⟩
  else none

/-- The nanoseconds of one part in `n`: the seconds left over by the division are carried into the
nanoseconds before these are divided. -/
private def quotientNanos (d : Duration) (n : Nat) : Nat :=
  d.nanos / n + ((d.secs % n) * 1000000000 + d.nanos % n) / n

/-- The carried seconds and the nanoseconds are divided together. -/
private theorem quotientNanos_eq (d : Duration) {n : Nat} (hn : 0 < n) :
    d.quotientNanos n = ((d.secs % n) * 1000000000 + d.nanos) / n := by
  have hsplit : (d.secs % n) * 1000000000 + d.nanos =
      (d.secs % n) * 1000000000 + d.nanos % n + n * (d.nanos / n) := by
    have := Nat.mod_add_div d.nanos n
    omega
  rw [hsplit, Nat.add_mul_div_left _ _ hn, quotientNanos, Nat.add_comm]

/-- Dividing left-over seconds never reaches a whole second. -/
private theorem quotientNanos_lt (d : Duration) (n : Nat) (hn : 0 < n) :
    d.quotientNanos n < 1000000000 := by
  have hnanos := d.nanos_lt
  have hrest : d.secs % n + 1 ≤ n := Nat.mod_lt _ hn
  have hscaled := Nat.mul_le_mul_right 1000000000 hrest
  rw [quotientNanos_eq d hn]
  apply Nat.div_lt_of_lt_mul
  rw [Nat.add_mul] at hscaled
  omega

/-- One part in `n`, rounded down to whole nanoseconds. One part in zero is empty. -/
def divide (d : Duration) (n : Nat) : Duration :=
  if hn : 0 < n then
    ⟨d.secs / n, d.quotientNanos n, Nat.lt_of_le_of_lt (Nat.div_le_self _ _) d.secs_lt,
      d.quotientNanos_lt n hn⟩
  else zero

/-- The span fits its two fields, so its nanoseconds lie below this bound. -/
theorem totalNanos_lt (d : Duration) : d.totalNanos < 18446744073709551616 * 1000000000 := by
  have := d.secs_lt
  have := d.nanos_lt
  unfold totalNanos
  omega

/-- A span is determined by its nanoseconds. -/
theorem eq_of_totalNanos_eq {a b : Duration} (h : a.totalNanos = b.totalNanos) : a = b := by
  obtain ⟨s, n, hs, hn⟩ := a
  obtain ⟨t, m, ht, hm⟩ := b
  simp only [totalNanos] at h
  have hsecs : s = t := by omega
  have hnanos : n = m := by omega
  subst hsecs hnanos
  rfl

/-- A span made of nanoseconds has exactly these, as long as they fit. -/
theorem totalNanos_ofNanos {n : Nat} (h : n < 18446744073709551616 * 1000000000) :
    (ofNanos n).totalNanos = n := by
  have hfits : n / 1000000000 < 18446744073709551616 := by omega
  simp only [ofNanos, hfits, dif_pos, totalNanos]
  omega

/-- A span made of milliseconds has their nanoseconds, as long as they fit 64 bits. -/
theorem totalNanos_ofMillis {n : Nat} (h : n < 18446744073709551616) :
    (ofMillis n).totalNanos = n * 1000000 :=
  totalNanos_ofNanos (by omega)

/-- The whole milliseconds of a span are those of its nanoseconds. -/
theorem millis_eq (d : Duration) : d.millis = d.totalNanos / 1000000 := by
  simp only [millis, totalNanos]
  omega

/-- An empty span has no nanoseconds. -/
theorem totalNanos_of_is_zero {d : Duration} (h : d.isZero = true) : d.totalNanos = 0 := by
  simp only [isZero, Bool.and_eq_true, beq_iff_eq] at h
  rw [totalNanos, h.1, h.2]

/-- An empty span has no milliseconds. -/
theorem millis_of_is_zero {d : Duration} (h : d.isZero = true) : d.millis = 0 := by
  rw [millis_eq, totalNanos_of_is_zero h]

/-- A span made of milliseconds has exactly these, as long as they fit 64 bits. -/
theorem millis_of_millis {n : Nat} (h : n < 18446744073709551616) : (ofMillis n).millis = n := by
  rw [millis_eq, totalNanos_ofMillis h]
  exact Nat.mul_div_cancel n (by decide)

/-- A sum that fits adds the nanoseconds. -/
theorem totalNanos_add? {a b c : Duration} (h : a.add? b = some c) :
    c.totalNanos = a.totalNanos + b.totalNanos := by
  simp only [add?] at h
  split at h
  · cases h
    simp only [totalNanos]
    omega
  · cases h

/-- A sum that does not fit exceeds the longest span. -/
theorem longest_lt_of_add_eq_none {a b : Duration} (h : a.add? b = none) :
    longest.totalNanos < a.totalNanos + b.totalNanos := by
  have ha := a.nanos_lt
  have hb := b.nanos_lt
  simp only [add?] at h
  split at h
  · cases h
  · simp only [totalNanos, longest]
    omega

/-- A part of a span has the nanoseconds of the span divided and rounded down. -/
theorem totalNanos_divide (d : Duration) (n : Nat) :
    (d.divide n).totalNanos = d.totalNanos / n := by
  unfold divide
  split
  next hn =>
    -- The whole seconds of the quotient divide out of the span, and the rest is carried.
    have hsplit : d.totalNanos =
        (d.secs % n) * 1000000000 + d.nanos + n * (d.secs / n * 1000000000) := by
      have hsecs : (d.secs % n) * 1000000000 + n * (d.secs / n * 1000000000) =
          d.secs * 1000000000 := by
        rw [← Nat.mul_assoc, ← Nat.add_mul, Nat.mod_add_div]
      rw [totalNanos, ← hsecs, Nat.add_right_comm]
    rw [hsplit, Nat.add_mul_div_left _ _ hn, ← quotientNanos_eq d hn, totalNanos, Nat.add_comm]
  next hn =>
    rw [Nat.eq_zero_of_not_pos hn, Nat.div_zero]
    rfl

end Duration

end BulkLoad
