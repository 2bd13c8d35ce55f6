/-!
# Reading whole numbers

A number is one or more decimal digits, with an optional plus sign in front.
The digits are taken from the left and the first of them that is no digit or
makes the number too large is what the text is refused for.
-/

namespace PeerRelay.Text

/-- Why a text is no number. -/
inductive NumberError where
  | empty
  | invalidDigit
  | tooLarge
  deriving DecidableEq, Repr

def NumberError.message : NumberError → String
  | empty => "cannot parse integer from empty string"
  | invalidDigit => "invalid digit found in string"
  | tooLarge => "number too large to fit in target type"

/-- Appends digits to a number, which must stay below the bound. -/
def appendDigits (bound : Nat) : Nat → List Char → Except NumberError Nat
  | n, [] => .ok n
  | n, c :: rest =>
    if '0' ≤ c ∧ c ≤ '9' then
      let next := 10 * n + (c.toNat - 48)
      if next < bound then appendDigits bound next rest else .error .tooLarge
    else .error .invalidDigit

/-- Reads a number below the bound. -/
def readNumber (bound : Nat) (text : List Char) : Except NumberError Nat :=
  match text with
  | [] => .error .empty
  | ['+'] => .error .invalidDigit
  | '+' :: digits => appendDigits bound 0 digits
  | digits => appendDigits bound 0 digits

/-- The bound of a 32-bit number. -/
def bound32 : Nat := 4294967296

/-- The bound of a 64-bit number. -/
def bound64 : Nat := 18446744073709551616

example : readNumber bound32 ['+', '0', '0', '7'] = .ok 7 := rfl
example : readNumber bound32 ['-', '0'] = .error .invalidDigit := rfl
example : readNumber 256 ['2', '5', '6', 'x'] = .error .tooLarge := rfl

end PeerRelay.Text
