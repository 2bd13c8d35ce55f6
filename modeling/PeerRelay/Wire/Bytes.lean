/-!
# Bytes and words on the wire

Everything the relay sends or receives is a list of bytes. Ids, addresses and
the length field of a header travel least significant byte first; UDP ports
travel most significant byte first. The readers below take a word off the
front of a list and undo the writers.
-/

namespace PeerRelay

/-- A run of bytes, first byte first. -/
abbrev Bytes := List UInt8

namespace Wire

/-- A 16-bit word, least significant byte first. -/
def little16 (w : UInt16) : Bytes :=
  [UInt8.ofNat (w.toNat % 256), UInt8.ofNat (w.toNat / 256)]

/-- A 16-bit word, most significant byte first. -/
def big16 (w : UInt16) : Bytes :=
  [UInt8.ofNat (w.toNat / 256), UInt8.ofNat (w.toNat % 256)]

/-- A 32-bit word, least significant byte first. -/
def little32 (w : UInt32) : Bytes :=
  [UInt8.ofNat (w.toNat % 256), UInt8.ofNat (w.toNat / 256 % 256),
    UInt8.ofNat (w.toNat / 65536 % 256), UInt8.ofNat (w.toNat / 16777216)]

/-- The word whose least significant byte is the first one given. -/
def ofLittle16 (a b : UInt8) : UInt16 :=
  UInt16.ofNat (a.toNat + 256 * b.toNat)

/-- The word whose most significant byte is the first one given. -/
def ofBig16 (a b : UInt8) : UInt16 :=
  UInt16.ofNat (256 * a.toNat + b.toNat)

/-- The word whose least significant byte is the first one given. -/
def ofLittle32 (a b c d : UInt8) : UInt32 :=
  UInt32.ofNat (a.toNat + 256 * b.toNat + 65536 * c.toNat + 16777216 * d.toNat)

@[simp] theorem length_little16 (w : UInt16) : (little16 w).length = 2 := rfl

@[simp] theorem length_big16 (w : UInt16) : (big16 w).length = 2 := rfl

@[simp] theorem length_little32 (w : UInt32) : (little32 w).length = 4 := rfl

theorem ofLittle16_bytes (w : UInt16) :
    ofLittle16 (UInt8.ofNat (w.toNat % 256)) (UInt8.ofNat (w.toNat / 256)) = w := by
  have := w.toNat_lt
  apply UInt16.toNat_inj.mp
  simp [ofLittle16]
  omega

theorem ofBig16_bytes (w : UInt16) :
    ofBig16 (UInt8.ofNat (w.toNat / 256)) (UInt8.ofNat (w.toNat % 256)) = w := by
  have := w.toNat_lt
  apply UInt16.toNat_inj.mp
  simp [ofBig16]
  omega

theorem ofLittle32_bytes (w : UInt32) :
    ofLittle32 (UInt8.ofNat (w.toNat % 256)) (UInt8.ofNat (w.toNat / 256 % 256))
      (UInt8.ofNat (w.toNat / 65536 % 256)) (UInt8.ofNat (w.toNat / 16777216)) = w := by
  have := w.toNat_lt
  apply UInt32.toNat_inj.mp
  simp [ofLittle32]
  omega

/-- A word is written as the bytes it was read from, so no two runs of bytes read alike. -/
theorem little16_ofLittle16 (a b : UInt8) : little16 (ofLittle16 a b) = [a, b] := by
  have ha := a.toNat_lt
  have hb := b.toNat_lt
  simp only [little16, List.cons.injEq, and_true]
  constructor <;> (apply UInt8.toNat_inj.mp; simp [ofLittle16] <;> omega)

theorem big16_ofBig16 (a b : UInt8) : big16 (ofBig16 a b) = [a, b] := by
  have ha := a.toNat_lt
  have hb := b.toNat_lt
  simp only [big16, List.cons.injEq, and_true]
  constructor <;> (apply UInt8.toNat_inj.mp; simp [ofBig16] <;> omega)

theorem little32_ofLittle32 (a b c d : UInt8) :
    little32 (ofLittle32 a b c d) = [a, b, c, d] := by
  have ha := a.toNat_lt
  have hb := b.toNat_lt
  have hc := c.toNat_lt
  have hd := d.toNat_lt
  simp only [little32, List.cons.injEq, and_true]
  refine ⟨?_, ?_, ?_, ?_⟩ <;> (apply UInt8.toNat_inj.mp; simp [ofLittle32]; omega)

end Wire

end PeerRelay
