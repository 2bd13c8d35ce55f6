import PeerRelay.Decimal.Fixed

/-!
# The shortest decimal that reads back

Every decimal in a certain interval around a number reads as that number: the
points nearer to it than to its neighbours, with the two ends when the
mantissa is even. The number is written with as few digits as some decimal of
the interval has, and of those with so few by the nearest, of two equally near
by the larger. It is written without an exponent.
-/

namespace PeerRelay.Decimal

/-- The exponent of the decimal digit that a positive quotient begins with. -/
def leadingExponent (num den : Nat) : Int :=
  if den ≤ num then ((Nat.toDigits 10 (num / den)).length : Int) - 1
  else
    let digitsAbove := (Nat.toDigits 10 ((den + num - 1) / num - 1)).length
    Int.neg digitsAbove

/-- Whether a decimal, a whole number of units of ten to the exponent, reads back
as mantissa times two to the binary exponent. -/
def readsBack (mantissa : Nat) (exponent : Int) (digits : Nat) (tens : Int) : Bool :=
  -- All in quarters of the binary unit: the upper neighbour is two away from the
  -- edge, the lower one likewise, or one when the number is the least of its binade.
  let value := 4 * mantissa
  let below := if mantissa = twoTo 52 ∧ exponent ≠ -1074 then 1 else 2
  let decimal := 4 * digits * tenTo tens.toNat * twoTo (-exponent).toNat
  let unit := tenTo (-tens).toNat * twoTo exponent.toNat
  let low := (value - below) * unit
  let high := (value + 2) * unit
  if mantissa % 2 = 0 then low ≤ decimal && decimal ≤ high
  else low < decimal && decimal < high

/-- The decimal with so many digits nearest to the quotient among its two
neighbours that read back, as digits and a power of ten. Of two equally near it
is the larger. -/
def nearestWith (mantissa : Nat) (exponent : Int) (count : Nat) : Option (Nat × Int) :=
  let num := Binary64.numerator mantissa exponent
  let den := Binary64.denominator exponent
  let tens := leadingExponent num den - count + 1
  let num := num * tenTo (-tens).toNat
  let den := den * tenTo tens.toNat
  let floor := num / den
  let lower := readsBack mantissa exponent floor tens
  let upper := readsBack mantissa exponent (floor + 1) tens
  let nearerLower := 2 * (num % den) < den
  if upper && !(lower && nearerLower) then some (floor + 1, tens)
  else if lower then some (floor, tens)
  else none

/-- The fewest digits that read back; seventeen always do. -/
def shortestDigits (mantissa : Nat) (exponent : Int) : Nat × Int :=
  ((List.range 17).findSome? (fun k => nearestWith mantissa exponent (k + 1))).getD
    (mantissa, exponent)

/-- Digits and a power of ten, written without an exponent. -/
def positional (digits : Nat) (tens : Int) : List Char :=
  if 0 ≤ tens then Nat.toDigits 10 (digits * tenTo tens.toNat)
  else
    let places := (-tens).toNat
    let fraction := (paddedDigits places (digits % tenTo places)).reverse.dropWhile (· == '0')
    let whole := Nat.toDigits 10 (digits / tenTo places)
    if fraction.isEmpty then whole else whole ++ '.' :: fraction.reverse

/-- The shortest text of a number that reads back as it. -/
def shortest (x : Float) : String :=
  match Binary64.ofFloat x with
  | .nan => "NaN"
  | .infinite negative => if negative then "-inf" else "inf"
  | .finite negative m e =>
    let text :=
      if m = 0 then ['0']
      else
        let (digits, tens) := shortestDigits m e
        positional digits tens
    String.ofList (if negative then '-' :: text else text)

end PeerRelay.Decimal
