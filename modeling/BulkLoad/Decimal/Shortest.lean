import BulkLoad.Decimal.Fixed

/-!
# The shortest decimal that reads back

Every finite double has an interval of reals that round to it. `shortestDigits` finds the decimal
with the fewest significant digits inside that interval, and of those the one nearest to the double.
`scientific` and `positional` write such digits, and `shortest` chooses between the two.
-/

namespace BulkLoad.Decimal

/-- A decimal `0.d₁d₂… * 10 ^ point`, with its digits as one whole number. -/
structure Digits where
  digits : Nat
  count : Nat
  point : Int

/-- Whether the fraction `num / den` lies between the two bounds, ends included iff `closed`. -/
def between (closed : Bool) (low high value : Nat × Nat) : Bool :=
  let below := low.1 * value.2
  let above := value.1 * low.2
  let left := value.1 * high.2
  let right := high.1 * value.2
  if closed then below ≤ above && left ≤ right else below < above && left < right

/-- The interval of reals that round to the double, as two fractions. -/
def Binary64.interval (x : Binary64) : (Nat × Nat) × (Nat × Nat) :=
  let gap := if x.lowest then 1 else 2
  (scaled (4 * x.mantissa - gap) (x.exponent - 2), scaled (4 * x.mantissa + 2) (x.exponent - 2))

/-- The number of decimal digits before the point, so that `10 ^ (result - 1) ≤ num / den` and
`num / den < 10 ^ result`, searched among the exponents that doubles have. -/
def magnitude (num den : Nat) : Int :=
  let above (k : Int) : Bool :=
    num * Nat.pow 10 (-k).toNat < den * Nat.pow 10 k.toNat
  let rec search (fuel : Nat) (k : Int) : Int :=
    match fuel with
    | 0 => k
    | fuel + 1 => if above k then k else search fuel (k + 1)
  search 700 (-330)

/-- Drop trailing zeros of the digits. -/
def Digits.trim (fuel : Nat) (d : Digits) : Digits :=
  match fuel with
  | 0 => d
  | fuel + 1 =>
      if d.digits % 10 == 0 && 1 < d.count then
        Digits.trim fuel ⟨d.digits / 10, d.count - 1, d.point⟩
      else d

/-- The shortest decimal of a positive double with the given point, trying more and more digits. -/
def searchDigits (x : Binary64) (point : Int) (fuel count : Nat) : Digits :=
  let (num, den) := x.ratio
  let (low, high) := x.interval
  let closed := x.mantissa % 2 == 0
  let shift : Int := count - point
  let scaledNum := num * Nat.pow 10 shift.toNat
  let scaledDen := den * Nat.pow 10 (-shift).toNat
  let value (digits : Nat) : Nat × Nat :=
    (digits * Nat.pow 10 (-shift).toNat, Nat.pow 10 shift.toNat)
  let nearest := roundHalfEven scaledNum scaledDen
  let floor := scaledNum / scaledDen
  let fits (digits : Nat) : Bool := between closed low high (value digits)
  let digits? :=
    if fits nearest then some nearest
    else if fits floor then some floor
    else if fits (floor + 1) then some (floor + 1)
    else none
  match digits?, fuel with
  | some digits, _ => ⟨digits, count, point⟩
  | none, 0 => ⟨nearest, count, point⟩
  | none, fuel + 1 => searchDigits x point fuel (count + 1)

/-- The shortest decimal of a positive double. A carry into a new digit moves the point. -/
def shortestDigits (x : Binary64) : Digits :=
  let (num, den) := x.ratio
  let found := searchDigits x (magnitude num den) 17 1
  let normal : Digits :=
    if found.digits < Nat.pow 10 found.count then found
    else ⟨found.digits / 10, found.count, found.point + 1⟩
  normal.trim 20

/-- One digit, a point and the others, and a signed exponent. -/
def Digits.scientific (d : Digits) : String :=
  let text := toString d.digits
  let exponent := d.point - 1
  let head := text.take 1
  let tail := text.drop 1
  head.toString ++ (if tail.isEmpty then "" else "." ++ tail.toString) ++ "e" ++
    (if exponent < 0 then "-" else "+") ++ toString exponent.natAbs

/-- The digits with a point in their place and at least one digit on either side of it. -/
def Digits.positional (d : Digits) : String :=
  let text := toString d.digits
  if d.point ≤ 0 then "0." ++ String.ofList (List.replicate (-d.point).toNat '0') ++ text
  else if (d.count : Int) ≤ d.point then
    text ++ String.ofList (List.replicate (d.point.toNat - d.count) '0') ++ ".0"
  else (text.take d.point.toNat).toString ++ "." ++ (text.drop d.point.toNat).toString

/-- The shortest text that reads back as the double: positional for exponents from -5 to 15 and
scientific otherwise. -/
def shortest (x : Float) : String :=
  match Binary64.ofFloat? x with
  | none => if x.isNaN then "NaN" else if x < 0 then "-inf" else "inf"
  | some exact =>
      (if exact.negative then "-" else "") ++
        if exact.mantissa == 0 then "0.0"
        else
          let digits := shortestDigits exact
          if -5 < digits.point && digits.point ≤ 16 then digits.positional
          else digits.scientific

end BulkLoad.Decimal
