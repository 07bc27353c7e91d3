import BulkLoad.Decimal.Fixed
import BulkLoad.Proofs.Text.Search
import Mathlib.Data.String.Basic

/-!
# The order of decimal numerals

Numerals of one length are ordered as texts like the numbers that they write. Numbers that are
filled up with zeros to a common width are therefore in order as texts as long as they fit that
width (`pad_left_lt`). A number that is longer may well come before a shorter one.
-/

namespace BulkLoad.Decimal

variable {digits others : List Char}

/-- The numeral with the greater number before it writes the greater number. -/
theorem value_lt_of_lt (hdigits : ∀ c ∈ digits, c.isDigit = true)
    (hlength : digits.length = others.length) {n m : Nat} (h : n < m) :
    Nat.ofDigitChars 10 digits n < Nat.ofDigitChars 10 others m := by
  induction digits generalizing others n m with
  | nil =>
      obtain rfl := List.length_eq_zero_iff.mp hlength.symm
      exact h
  | cons c digits ih =>
      cases others with
      | nil => cases hlength
      | cons d others =>
          have hc := Text.digit_le (hdigits c List.mem_cons_self)
          rw [Nat.ofDigitChars_cons, Nat.ofDigitChars_cons]
          refine ih (fun x hx => hdigits x (List.mem_cons_of_mem _ hx)) (Nat.succ.inj hlength) ?_
          omega

/-- Of two numerals of one length the one that writes the smaller number comes first. -/
theorem lt_of_value_lt (hdigits : ∀ c ∈ digits, c.isDigit = true)
    (hothers : ∀ c ∈ others, c.isDigit = true) (hlength : digits.length = others.length) {n : Nat}
    (h : Nat.ofDigitChars 10 digits n < Nat.ofDigitChars 10 others n) : digits < others := by
  induction digits generalizing others n with
  | nil =>
      obtain rfl := List.length_eq_zero_iff.mp hlength.symm
      exact absurd h (Nat.lt_irrefl _)
  | cons c digits ih =>
      cases others with
      | nil => cases hlength
      | cons d others =>
          have hc := Text.digit_le (hdigits c List.mem_cons_self)
          have hd := Text.digit_le (hothers d List.mem_cons_self)
          have htail := fun x hx => hdigits x (List.mem_cons_of_mem c hx)
          have hother := fun x hx => hothers x (List.mem_cons_of_mem d hx)
          rw [Nat.ofDigitChars_cons, Nat.ofDigitChars_cons] at h
          rw [List.cons_lt_cons_iff]
          rcases Nat.lt_trichotomy c.toNat d.toNat with hless | hsame | hgreater
          · exact .inl hless
          · obtain rfl : c = d := Char.toNat_inj.mp hsame
            exact .inr ⟨rfl, ih htail hother (Nat.succ.inj hlength) h⟩
          · refine absurd (value_lt_of_lt hother (Nat.succ.inj hlength).symm ?_)
              (Nat.lt_asymm h)
            omega

/-- Zeros in front do not change the number. -/
theorem value_zeros (count : Nat) (digits : List Char) :
    Nat.ofDigitChars 10 (List.replicate count '0' ++ digits) 0 = Nat.ofDigitChars 10 digits 0 := by
  induction count with
  | zero => rfl
  | succ count ih => exact ih

/-- A number that is filled up consists of digits. -/
theorem is_digit_of_mem_pad_left {width n : Nat} {c : Char}
    (h : c ∈ (padLeft width (toString n)).toList) : c.isDigit = true := by
  obtain ⟨-, hdigits, -⟩ := Text.digits_to_string n
  rw [padLeft, String.toList_append, String.toList_ofList] at h
  rcases List.mem_append.mp h with hzero | hdigit
  · rw [List.eq_of_mem_replicate hzero]
    decide
  · exact hdigits c hdigit

/-- A number that is filled up to a width that it fits has that width. -/
theorem length_pad_left {width n : Nat} (hwidth : 0 < width) (h : n < 10 ^ width) :
    (padLeft width (toString n)).toList.length = width := by
  have hlength : (toString n).toList.length ≤ width := by
    rw [Nat.toString_eq_ofList_toDigits, String.toList_ofList]
    exact (Nat.length_toDigits_le_iff (by decide) hwidth).mpr h
  rw [padLeft, String.toList_append, String.toList_ofList, List.length_append,
    List.length_replicate, ← String.length_toList]
  omega

/-- The digits of a number that is filled up still write the number. -/
theorem value_pad_left (width n : Nat) :
    Nat.ofDigitChars 10 (padLeft width (toString n)).toList 0 = n := by
  obtain ⟨-, -, hvalue⟩ := Text.digits_to_string n
  rw [padLeft, String.toList_append, String.toList_ofList, value_zeros, hvalue]

/-- Numbers that are filled up to a common width that they fit are in order as texts. -/
theorem pad_left_lt {width n m : Nat} (hwidth : 0 < width) (hm : m < 10 ^ width) (h : n < m) :
    padLeft width (toString n) < padLeft width (toString m) := by
  have hlength := length_pad_left hwidth (Nat.lt_trans h hm)
  rw [String.lt_iff_toList_lt]
  refine lt_of_value_lt (n := 0) (fun _ => is_digit_of_mem_pad_left)
    (fun _ => is_digit_of_mem_pad_left) (hlength.trans (length_pad_left hwidth hm).symm) ?_
  rwa [value_pad_left, value_pad_left]

/-- Beyond the width the order is lost. -/
example : padLeft 4 (toString 10000) < padLeft 4 (toString 9999) := by decide +kernel

end BulkLoad.Decimal
