import BulkLoad.Decimal.Binary64

/-!
# Decimals with a fixed number of places

`fixed places x` writes the exact value of a double with that many decimal places. The digits are
those of the nearest decimal, and a tie goes to the even neighbour (`roundHalfEven_mul_two_le`).
-/

namespace BulkLoad.Decimal

/-- The whole number nearest to `num / den`; a tie goes to the even neighbour. -/
def roundHalfEven (num den : Nat) : Nat :=
  let floor := num / den
  let rest := num % den
  if 2 * rest < den then floor
  else if den < 2 * rest then floor + 1
  else if floor % 2 == 0 then floor else floor + 1

/-- The rounded quotient is at most half a unit away from the exact one. -/
theorem roundHalfEven_mul_two_le (num den : Nat) (h : 0 < den) :
    2 * num ≤ (2 * roundHalfEven num den + 1) * den ∧
      2 * (roundHalfEven num den * den) ≤ 2 * num + den := by
  have hsplit := Nat.div_add_mod num den
  have hrest := Nat.mod_lt num h
  rw [Nat.mul_comm] at hsplit
  simp only [roundHalfEven]
  repeat' split
  all_goals
    simp only [Nat.add_mul, Nat.mul_assoc, Nat.one_mul, Nat.mul_add]
    omega

/-- A digit string of at least this many characters, filled up with zeros on the left. -/
def padLeft (width : Nat) (digits : String) : String :=
  String.ofList (List.replicate (width - digits.length) '0') ++ digits

/-- A whole number of units of the last place, written with a point before the last `places`
digits. -/
def placed (places : Nat) (units : Nat) : String :=
  if places == 0 then toString units
  else
    let unit := Nat.pow 10 places
    toString (units / unit) ++ "." ++ padLeft places (toString (units % unit))

/-- The value with exactly this many decimal places. -/
def fixed (places : Nat) (x : Float) : String :=
  match Binary64.ofFloat? x with
  | none => if x.isNaN then "NaN" else if x < 0 then "-inf" else "inf"
  | some exact =>
      let (num, den) := exact.ratio
      (if exact.negative then "-" else "") ++
        placed places (roundHalfEven (num * Nat.pow 10 places) den)

end BulkLoad.Decimal
