/-!
# The exact value of a double

A finite double is a whole number times a power of two. `Binary64.ofFloat?` reads sign, whole number
and exponent off the bit pattern, and `ratio` gives the magnitude as an exact fraction, so that
decimal text can be computed in natural numbers.
-/

namespace BulkLoad.Decimal

/-- A finite double: the magnitude is `mantissa * 2 ^ exponent`. `lowest` tells the smallest normal
mantissa, below which the next smaller double lies only half as far away. -/
structure Binary64 where
  negative : Bool
  mantissa : Nat
  exponent : Int
  lowest : Bool

/-- The exact value of a double, or `none` when it is infinite or not a number. -/
def Binary64.ofFloat? (x : Float) : Option Binary64 :=
  let bits : Nat := x.toBits.toNat
  let field : Nat := bits / 4503599627370496 % 2048
  let fraction : Nat := bits % 4503599627370496
  let negative := bits / 9223372036854775808 == 1
  if field == 2047 then none
  else if field == 0 then some ⟨negative, fraction, -1074, false⟩
  else
    some
      ⟨negative, fraction + 4503599627370496, (field : Int) - 1075, fraction == 0 && field != 1⟩

/-- A power of two scaled onto a whole number, as numerator and denominator. -/
def scaled (whole : Nat) (exponent : Int) : Nat × Nat :=
  (whole * Nat.pow 2 exponent.toNat, Nat.pow 2 (-exponent).toNat)

/-- The magnitude as numerator and denominator. -/
def Binary64.ratio (x : Binary64) : Nat × Nat := scaled x.mantissa x.exponent

end BulkLoad.Decimal
