import PeerRelay.Wire.Bytes

/-!
# Hexadecimal text

Bytes are written as two lower-case hexadecimal digits each.
-/

namespace PeerRelay.Text

/-- The lower-case hexadecimal digit of a number below sixteen. -/
def hexDigit (n : Nat) : Char :=
  if n < 10 then Char.ofNat (48 + n) else Char.ofNat (87 + n)

/-- A byte as two lower-case hexadecimal digits. -/
def hexByte (b : UInt8) : List Char :=
  [hexDigit (b.toNat / 16), hexDigit (b.toNat % 16)]

/-- A run of bytes, two digits a byte and nothing between them. -/
def hex (bytes : Bytes) : String :=
  String.ofList (bytes.flatMap hexByte)

/-- A 64-bit number as sixteen digits. -/
def hexWord (w : UInt64) : String :=
  String.ofList ((List.range 16).map (fun i => hexDigit (w.toNat >>> (4 * (15 - i)) % 16)))

/-- A byte with the mark of its base in front, as error texts name it. -/
def hexMarked (b : UInt8) : String :=
  "0x" ++ String.ofList (hexByte b)

/-- The value of a hexadecimal digit in either case. -/
def hexValue? (c : Char) : Option Nat :=
  if '0' ≤ c ∧ c ≤ '9' then some (c.toNat - 48)
  else if 'a' ≤ c ∧ c ≤ 'f' then some (c.toNat - 87)
  else if 'A' ≤ c ∧ c ≤ 'F' then some (c.toNat - 55)
  else none

/-- Reads pairs of hexadecimal digits; nothing else may stand in the text. -/
def ofHex? : List Char → Option Bytes
  | [] => some []
  | hi :: lo :: rest => do
    let h ← hexValue? hi
    let l ← hexValue? lo
    return UInt8.ofNat (16 * h + l) :: (← ofHex? rest)
  | [_] => none

example : hex [0xDD, 0x05, 0x0A] = "dd050a" := by decide
example : hexMarked 4 = "0x04" := by decide
example : ofHex? ['f', 'F', '0', '9'] = some [0xFF, 0x09] := by decide

end PeerRelay.Text
