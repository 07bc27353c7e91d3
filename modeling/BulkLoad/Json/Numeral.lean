import BulkLoad.Json.Basic

/-!
# The value of a number literal

A literal without point and exponent is an integer as long as 64 bits hold it. Every other literal
is a double: the first digits that fit 64 bits are scaled by a power of ten, in steps of at most
308 places. The result may be one unit off the nearest double, and that is the value meant here.
-/

namespace BulkLoad.Json

/-- The value of a number literal: a natural number below `2 ^ 64`, a negative integer down to
`-2 ^ 63`, or a double. -/
inductive NumberValue where
  | natural (n : Nat)
  | negative (n : Int)
  | real (x : Float)

/-- Digits taken into a 64-bit significand until one no longer fits, and how many were taken. -/
def takeDigits (significand : Nat) : List Char → Nat × Nat
  | [] => (significand, 0)
  | c :: rest =>
      let next := significand * 10 + (c.toNat - '0'.toNat)
      if next < 18446744073709551616 then
        let (result, taken) := takeDigits next rest
        (result, taken + 1)
      else (significand, 0)

/-- A significand times a power of ten, or `none` when that is no finite double. The steps are
bounded by the size of the exponent. -/
def scaleTen (fuel : Nat) (x : Float) (exponent : Int) : Option Float :=
  if exponent.natAbs ≤ 308 then
    let power := Float.ofScientific 1 false exponent.natAbs
    if 0 ≤ exponent then
      let scaled := x * power
      if scaled.isInf then none else some scaled
    else some (x / power)
  else if x == 0 then some x
  else if 0 ≤ exponent then none
  else
    match fuel with
    | 0 => some 0
    | fuel + 1 => scaleTen fuel (x / Float.ofScientific 1 false 308) (exponent + 308)

/-- The number with the given sign. -/
def signed (negative : Bool) (x : Float) : Float := if negative then -x else x

/-- A significand with a power of ten and the written exponent of a literal. An exponent of more
than 31 bits is out of range, or makes a zero if it is negative or the significand is zero. -/
def realOf (n : Numeral) (significand : Nat) (shift : Int) : Except Fault NumberValue :=
  let scale (exponent : Int) : Except Fault NumberValue :=
    match scaleTen (exponent.natAbs / 308 + 1) significand.toUInt64.toFloat exponent with
    | none => .error .malformed
    | some x => .ok (.real (signed n.negative x))
  match n.exponent with
  | none => scale shift
  | some (negative, digits) =>
      let written := ofDigits digits
      if 2147483648 ≤ written then
        if significand != 0 && !negative then .error .malformed
        else .ok (.real (signed n.negative 0))
      else
        let total := if negative then shift - written else shift + written
        scale (max (-2147483648) (min total 2147483647))

/-- The value of a number literal. A literal out of range is malformed. -/
def Numeral.value (n : Numeral) : Except Fault NumberValue :=
  let (significand, taken) := takeDigits 0 n.whole
  let dropped := n.whole.length - taken
  match n.fraction with
  | some fraction =>
      let (significand, taken) := takeDigits significand fraction
      realOf n significand ((dropped : Int) - taken)
  | none =>
      if n.exponent.isSome || dropped != 0 then realOf n significand dropped
      else if !n.negative then .ok (.natural significand)
      else if significand == 0 || 9223372036854775808 < significand then
        .ok (.real (-significand.toUInt64.toFloat))
      else .ok (.negative (-significand))

end BulkLoad.Json
