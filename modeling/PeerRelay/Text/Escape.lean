import PeerRelay.Text.Hex

/-!
# Bytes as printable ASCII

A printable ASCII character stands for itself. Tab, line feed, carriage return,
the two quotes and the backslash are written with a backslash in front, and
every other byte as a backslash, an x and two hexadecimal digits.
-/

namespace PeerRelay.Text

/-- The printable form of one byte. -/
def escapeByte (b : UInt8) : List Char :=
  if b = 0x09 then ['\\', 't']
  else if b = 0x0A then ['\\', 'n']
  else if b = 0x0D then ['\\', 'r']
  else if b = 0x22 then ['\\', '\"']
  else if b = 0x27 then ['\\', '\'']
  else if b = 0x5C then ['\\', '\\']
  else if 0x20 ≤ b ∧ b ≤ 0x7E then [Char.ofNat b.toNat]
  else '\\' :: 'x' :: hexByte b

/-- The printable form of a run of bytes. -/
def escape (bytes : Bytes) : String :=
  String.ofList (bytes.flatMap escapeByte)

end PeerRelay.Text
