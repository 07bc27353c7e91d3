import BulkLoad.Text.Blank
import BulkLoad.Text.Search
import Mathlib.Data.List.Basic

/-!
# Finding a pattern in a text

A pattern is found where it stands, if its first character does not come earlier (`cut_first`), and
not at all in a text without that character (`cut_eq_none`). A number is read back from its decimal
digits (`natural_to_string`).
-/

namespace BulkLoad.Text

variable {c : Char} {pattern before text rest : List Char}

/-! ## Cutting a text -/

/-- Where the pattern does not begin, it is searched for in the rest. -/
theorem cut_cons (h : pattern.isPrefixOf (c :: rest) = false) :
    cut? pattern (c :: rest) =
      (cut? pattern rest).map fun (before, after) => (c :: before, after) := by
  rw [cut?, h]
  rfl

/-- A text that begins with another character does not begin with the pattern. -/
theorem not_prefix_of_ne {first : Char} (h : c ≠ first) :
    (first :: pattern).isPrefixOf (c :: rest) = false := by
  have hne : (first == c) = false := beq_eq_false_iff_ne.mpr h.symm
  rw [List.isPrefixOf_cons_cons, hne, Bool.false_and]

/-- Text without the first character of the pattern is passed over. -/
theorem cut_append {first : Char} (h : first ∉ before) :
    cut? (first :: pattern) (before ++ rest) =
      (cut? (first :: pattern) rest).map fun (between, after) => (before ++ between, after) := by
  induction before with
  | nil => exact Option.map_id'.symm
  | cons c before ih =>
      have hc : c ≠ first := fun hsame => h (hsame ▸ List.mem_cons_self)
      have hbefore : first ∉ before := fun hmem => h (List.mem_cons_of_mem c hmem)
      rw [List.cons_append, cut_cons (not_prefix_of_ne hc), ih hbefore, Option.map_map]
      rfl

/-- A text without the first character of the pattern does not have the pattern. -/
theorem cut_eq_none {first : Char} (h : first ∉ text) : cut? (first :: pattern) text = none := by
  have hcut : cut? (first :: pattern) (text ++ []) = none := cut_append h
  rwa [List.append_nil] at hcut

/-- A pattern at the beginning is found there. -/
theorem cut_prefix {first : Char} (pattern rest : List Char) :
    cut? (first :: pattern) (first :: pattern ++ rest) = some ([], rest) := by
  have hprefix : (first :: pattern).isPrefixOf (first :: pattern ++ rest) = true :=
    List.isPrefixOf_iff_prefix.mpr (List.prefix_append _ rest)
  rw [List.cons_append] at hprefix ⊢
  rw [cut?, hprefix, if_pos rfl, ← List.cons_append, List.drop_left]

/-- A pattern is found where its first character comes first. -/
theorem cut_first {first : Char} (h : first ∉ before) (pattern rest : List Char) :
    cut? (first :: pattern) (before ++ (first :: pattern ++ rest)) = some (before, rest) := by
  rw [cut_append h, cut_prefix, Option.map_some]
  exact congrArg (fun before => some (before, rest)) (List.append_nil before)

/-- The text after the only occurrence of a pattern is that after the last. -/
theorem after_last_eq (h : cut? pattern text = some (before, rest))
    (hlast : cut? pattern rest = none) : afterLast pattern text = rest := by
  have hrest (fuel : Nat) : afterLastFrom pattern fuel rest = rest := by
    cases fuel with
    | zero => rfl
    | succ fuel => rw [afterLastFrom, hlast]
  cases text with
  | nil =>
      rw [cut?] at h
      split at h
      · cases h
        rfl
      · cases h
  | cons c text =>
      rw [afterLast, List.length_cons, afterLastFrom, h]
      exact hrest text.length

/-! ## Decimal digits -/

/-- The range of the decimal digits. -/
theorem digit_le (h : c.isDigit = true) : '0'.toNat ≤ c.toNat ∧ c.toNat ≤ '0'.toNat + 9 := by
  simpa [Char.isDigit, UInt32.le_iff_toNat_le] using h

/-- A decimal digit is no white space. -/
theorem is_space_of_digit (h : c.isDigit = true) : isSpace c = false := by
  have hrange : 48 ≤ c.toNat ∧ c.toNat ≤ 57 := digit_le h
  simp only [isSpace, Bool.or_eq_false_iff, Bool.and_eq_false_iff, beq_eq_false_iff_ne,
    decide_eq_false_iff_not]
  omega

/-- What the digits of a number are. -/
theorem digits_to_string (n : Nat) :
    (toString n).toList ≠ [] ∧ (∀ c ∈ (toString n).toList, c.isDigit = true) ∧
      Nat.ofDigitChars 10 (toString n).toList 0 = n := by
  rw [Nat.toString_eq_ofList_toDigits, String.toList_ofList]
  exact ⟨Nat.toDigits_ne_nil, fun c hc => Nat.isDigit_of_mem_toDigits (by decide) (by decide) hc,
    Nat.ofDigitChars_ten_toDigits⟩

/-- A number is read back from its decimal digits, if it fits 64 bits. -/
theorem natural_to_string {n : Nat} (h : n < 18446744073709551616) :
    natural? (toString n).toList = some n := by
  obtain ⟨hne, hdigits, hvalue⟩ := digits_to_string n
  generalize (toString n).toList = digits at hne hdigits hvalue
  have hsign : (digits.head? == some '+') = false := by
    refine beq_eq_false_iff_ne.mpr fun hplus => ?_
    exact absurd (hdigits '+' (List.mem_of_head? hplus)) (by decide)
  have hfold : digits.foldl (fun n c => n * 10 + (c.toNat - '0'.toNat)) 0 = n := by
    rw [← hvalue, Nat.ofDigitChars]
    exact congrArg (fun step => digits.foldl step 0)
      (funext fun n => funext fun c => by rw [Nat.mul_comm])
  rw [natural?, hsign]
  simp only [Bool.false_eq_true, if_false, List.isEmpty_eq_false_iff.mpr hne,
    List.all_eq_true.mpr hdigits, hfold, h, if_true, Bool.not_true, Bool.or_self]

end BulkLoad.Text
