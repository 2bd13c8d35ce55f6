/-!
# The numbers that 64 bits stand for

A 64-bit floating-point number is a sign, eleven bits of exponent and 52 bits of
fraction. Taken apart it is a whole number times a power of two, or one of the
infinities, or no number.
-/

namespace PeerRelay.Decimal

/-- The weight of a bit. -/
def twoTo (n : Nat) : Nat := Nat.pow 2 n

/-- The weight of a decimal digit. -/
def tenTo (n : Nat) : Nat := Nat.pow 10 n

/-- What 64 bits stand for. -/
inductive Binary64 where
  | nan
  | infinite (negative : Bool)
  /-- The number is the mantissa times two to the exponent. -/
  | finite (negative : Bool) (mantissa : Nat) (exponent : Int)
  deriving DecidableEq, Repr

namespace Binary64

/-- Takes 64 bits apart. -/
def ofBits (bits : UInt64) : Binary64 :=
  let n := bits.toNat
  let negative := decide (twoTo 63 ≤ n)
  let biased : Nat := n / twoTo 52 % 2048
  let fraction : Nat := n % twoTo 52
  if biased = 2047 then
    if fraction = 0 then infinite negative else nan
  else if biased = 0 then finite negative fraction (-1074)
  else finite negative (twoTo 52 + fraction) ((biased : Int) - 1075)

def ofFloat (x : Float) : Binary64 := ofBits x.toBits

/-- The numerator of a mantissa times a power of two. -/
def numerator (mantissa : Nat) (exponent : Int) : Nat := mantissa * twoTo exponent.toNat

/-- The denominator of a mantissa times a power of two. -/
def denominator (exponent : Int) : Nat := twoTo (-exponent).toNat

end Binary64

end PeerRelay.Decimal
