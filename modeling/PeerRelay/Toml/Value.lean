import PeerRelay.Decimal.Fixed

/-!
# TOML values

What a TOML document is made of once it has been read. A date or a time has a
text form of its own, in which it can stand for a string.
-/

namespace PeerRelay.Toml

structure Date where
  year : Nat
  month : Nat
  day : Nat
  deriving DecidableEq, Repr

structure Time where
  hour : Nat
  minute : Nat
  second : Nat
  nanosecond : Nat
  deriving DecidableEq, Repr

/-- How far a time is from universal time. -/
inductive Offset where
  | utc
  | minutes (behind : Bool) (count : Nat)
  deriving DecidableEq, Repr

/-- A date, a time of day, or both, and with both an offset. -/
structure Moment where
  date : Option Date := none
  time : Option Time := none
  offset : Option Offset := none
  deriving DecidableEq, Repr

/-- A number of at least two digits. -/
def twoDigits (n : Nat) : List Char := Decimal.paddedDigits 2 n

def Date.text (d : Date) : List Char :=
  Decimal.paddedDigits 4 d.year ++ '-' :: twoDigits d.month ++ '-' :: twoDigits d.day

/-- The fraction of the second is written as far as it has digits other than zero. -/
def Time.text (t : Time) : List Char :=
  let fraction := (Decimal.paddedDigits 9 t.nanosecond).reverse.dropWhile (· == '0')
  twoDigits t.hour ++ ':' :: twoDigits t.minute ++ ':' :: twoDigits t.second ++
    (if fraction.isEmpty then [] else '.' :: fraction.reverse)

def Offset.text : Offset → List Char
  | utc => ['Z']
  | minutes behind n =>
    (if behind && n != 0 then '-' else '+') :: twoDigits (n / 60) ++ ':' :: twoDigits (n % 60)

def Moment.text (m : Moment) : List Char :=
  (m.date.map Date.text).getD [] ++
    (if m.date.isSome && m.time.isSome then ['T'] else []) ++
    (m.time.map Time.text).getD [] ++ (m.offset.map Offset.text).getD []

/-- A floating-point number as it was written. -/
inductive Real where
  | nan
  | infinite (negative : Bool)
  | decimal (negative : Bool) (digits : Nat) (tens : Int)
  deriving DecidableEq, Repr

/-- A value; tables keep their entries in the order of the document. -/
inductive Value where
  | string (text : String)
  | integer (n : Int)
  | real (x : Real)
  | boolean (b : Bool)
  | moment (m : Moment)
  | array (elements : List Value)
  | table (entries : List (String × Value))
  deriving Repr

end PeerRelay.Toml
