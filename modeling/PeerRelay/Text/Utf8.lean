import PeerRelay.Wire.Bytes

/-!
# UTF-8

Bytes are read from the front, a character at a time. The first byte says how
many continuation bytes follow and narrows the range of the first of them, so
that overlong forms, surrogates and numbers past the last code point are no
characters. Where no character stands, the longest run of bytes that could
still have begun one is passed over as a whole.
-/

namespace PeerRelay.Text.Utf8

/-- What a first byte from `0x80` on announces: the number of continuation
bytes, the range of the first of them, and the top bits of the character. -/
def lead? (b : UInt8) : Option (Nat × UInt8 × UInt8 × Nat) :=
  if b < 0xC2 then none
  else if b ≤ 0xDF then some (1, 0x80, 0xBF, b.toNat - 0xC0)
  else if b = 0xE0 then some (2, 0xA0, 0xBF, 0)
  else if b = 0xED then some (2, 0x80, 0x9F, 13)
  else if b ≤ 0xEF then some (2, 0x80, 0xBF, b.toNat - 0xE0)
  else if b = 0xF0 then some (3, 0x90, 0xBF, 0)
  else if b ≤ 0xF3 then some (3, 0x80, 0xBF, b.toNat - 0xF0)
  else if b = 0xF4 then some (3, 0x80, 0x8F, 4)
  else none

/-- Takes so many continuation bytes, the first of them within the range, and
adds six bits for each. Stops in front of a byte that does not fit. -/
def continuation : Nat → UInt8 → UInt8 → Nat → Bytes → Option Char × Bytes
  | 0, _, _, bits, rest => (some (Char.ofNat bits), rest)
  | _ + 1, _, _, _, [] => (none, [])
  | n + 1, lo, hi, bits, b :: rest =>
    if lo ≤ b ∧ b ≤ hi then continuation n 0x80 0xBF (64 * bits + b.toNat % 64) rest
    else (none, b :: rest)

/-- The character that begins with the byte, or none, and the bytes after it. -/
def next (b : UInt8) (rest : Bytes) : Option Char × Bytes :=
  if b < 0x80 then (some (Char.ofNat b.toNat), rest)
  else
    match lead? b with
    | none => (none, rest)
    | some (n, lo, hi, bits) => continuation n lo hi bits rest

theorem length_continuation_le (n : Nat) (lo hi : UInt8) (bits : Nat) (rest : Bytes) :
    (continuation n lo hi bits rest).2.length ≤ rest.length := by
  induction n generalizing lo hi bits rest with
  | zero => simp [continuation]
  | succ n ih =>
    cases rest with
    | nil => simp [continuation]
    | cons b rest =>
      simp only [continuation]
      split
      · exact Nat.le_succ_of_le (ih _ _ _ rest)
      · simp

theorem length_next_le (b : UInt8) (rest : Bytes) :
    (next b rest).2.length ≤ rest.length := by
  unfold next
  split
  · simp
  · split
    · simp
    · exact length_continuation_le ..

/-- The characters in turn, with `none` for each run that is no character. -/
def scan : Bytes → List (Option Char)
  | [] => []
  | b :: rest => (next b rest).1 :: scan (next b rest).2
termination_by bytes => bytes.length
decreasing_by exact Nat.lt_succ_of_le (length_next_le b rest)

/-- The text, if the bytes are UTF-8 throughout. -/
def decode? (bytes : Bytes) : Option String :=
  ((scan bytes).mapM id).map String.ofList

/-- The text with a replacement character for each run that is no character. -/
def decodeLossy (bytes : Bytes) : String :=
  String.ofList ((scan bytes).map (Option.getD · '\uFFFD'))

/-- The bytes of a text. -/
def encode (text : String) : Bytes :=
  text.toList.flatMap String.utf8EncodeChar

end PeerRelay.Text.Utf8
