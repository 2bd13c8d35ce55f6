import PeerRelay.Wire.Error

/-!
# The frame header

Eight bytes stand in front of every body: two magic bytes, the protocol
version, the server version, the function, the key index and the length of
the body. A header is valid when the magic bytes are right and the server
version is one of the two that announce an encrypted or a plain payload.
-/

namespace PeerRelay.Wire

/-- The header of a frame, field by field in wire order. -/
structure Header where
  magic1 : UInt8
  magic2 : UInt8
  protoVersion : UInt8
  serverVersion : UInt8
  function : UInt8
  keyIndex : UInt8
  bodyLength : UInt16
  deriving DecidableEq, Repr

namespace Header

/-- The bytes a header takes. -/
def size : Nat := 8

def firstMagic : UInt8 := 0xDD

def secondMagic : UInt8 := 0x05

/-- The server version that announces an encrypted payload. -/
def encryptedVersion : UInt8 := 0x02

/-- The server version that announces a plain payload. -/
def plainVersion : UInt8 := 0x04

/-- A header of the relay's own making, with nothing after it. -/
def fresh (op : Opcode) : Header where
  magic1 := firstMagic
  magic2 := secondMagic
  protoVersion := 0x01
  serverVersion := plainVersion
  function := op.code
  keyIndex := 0
  bodyLength := 0

/-- The eight bytes of a header. -/
def toBytes (h : Header) : Bytes :=
  h.magic1 :: h.magic2 :: h.protoVersion :: h.serverVersion :: h.function :: h.keyIndex ::
    little16 h.bodyLength

/-- Takes a header off the front of a list that has eight bytes. -/
def read : Bytes → Option (Header × Bytes)
  | m1 :: m2 :: p :: v :: f :: k :: lo :: hi :: rest =>
    some (⟨m1, m2, p, v, f, k, ofLittle16 lo hi⟩, rest)
  | _ => none

/-- The magic bytes match and the server version is one of the two accepted. -/
def isValid (h : Header) : Bool :=
  h.magic1 == firstMagic && h.magic2 == secondMagic &&
    (h.serverVersion == encryptedVersion || h.serverVersion == plainVersion)

def isEncrypted (h : Header) : Bool := h.serverVersion == encryptedVersion

/-- The same header for another function. -/
def withFunction (h : Header) (op : Opcode) : Header := { h with function := op.code }

/-- The bytes of the whole frame: header and body. -/
def frameLength (h : Header) : Nat := size + h.bodyLength.toNat

@[simp] theorem length_toBytes (h : Header) : h.toBytes.length = 8 := rfl

@[simp] theorem read_toBytes_append (h : Header) (rest : Bytes) :
    read (h.toBytes ++ rest) = some (h, rest) := by
  simp [toBytes, little16, read, ofLittle16_bytes]

/-- Reading a header takes exactly the bytes that it writes. -/
theorem eq_toBytes_append_of_read {bytes rest : Bytes} {h : Header}
    (hr : read bytes = some (h, rest)) : bytes = h.toBytes ++ rest := by
  unfold read at hr
  split at hr
  · cases hr
    simp [toBytes, little16_ofLittle16]
  · cases hr

theorem read_eq_none_iff {bytes : Bytes} : read bytes = none ↔ bytes.length < 8 := by
  constructor
  · intro h
    match bytes with
    | [] | [_] | [_, _] | [_, _, _] | [_, _, _, _] | [_, _, _, _, _] | [_, _, _, _, _, _]
    | [_, _, _, _, _, _, _] => simp
    | _ :: _ :: _ :: _ :: _ :: _ :: _ :: _ :: _ => simp [read] at h
  · intro h
    match bytes with
    | [] | [_] | [_, _] | [_, _, _] | [_, _, _, _] | [_, _, _, _, _] | [_, _, _, _, _, _]
    | [_, _, _, _, _, _, _] => rfl
    | _ :: _ :: _ :: _ :: _ :: _ :: _ :: _ :: _ => simp at h; omega

@[simp] theorem isValid_fresh (op : Opcode) : (fresh op).isValid = true := rfl

@[simp] theorem isValid_withFunction (h : Header) (op : Opcode) :
    (h.withFunction op).isValid = h.isValid := rfl

end Header

end PeerRelay.Wire
