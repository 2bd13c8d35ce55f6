import PeerRelay.Decimal.Binary64

/-!
# A fixed number of decimal places

The exact value of a number is rounded to the places asked for; a value half
way between two goes to the one whose last digit is even.
-/

namespace PeerRelay.Decimal

/-- The whole number nearest to a quotient, the even one of two equally near. -/
def roundQuotient (num den : Nat) : Nat :=
  let q := num / den
  let r := num % den
  if den < 2 * r ∨ (2 * r = den ∧ q % 2 = 1) then q + 1 else q

/-- The digits of a number, with zeros in front up to the width. -/
def paddedDigits (width n : Nat) : List Char :=
  let digits := Nat.toDigits 10 n
  List.replicate (width - digits.length) '0' ++ digits

/-- The text of a quotient of whole numbers with so many decimal places. -/
def fixedQuotient (places num den : Nat) : List Char :=
  let scaled := roundQuotient (num * tenTo places) den
  Nat.toDigits 10 (scaled / tenTo places) ++
    '.' :: paddedDigits places (scaled % tenTo places)

/-- The text of a number with so many decimal places; a negative zero keeps its sign. -/
def fixed (places : Nat) (x : Float) : String :=
  match Binary64.ofFloat x with
  | .nan => "NaN"
  | .infinite negative => if negative then "-inf" else "inf"
  | .finite negative m e =>
    let text := fixedQuotient places (Binary64.numerator m e) (Binary64.denominator e)
    String.ofList (if negative then '-' :: text else text)

end PeerRelay.Decimal
