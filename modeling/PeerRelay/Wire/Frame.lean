import PeerRelay.Wire.Header

/-!
# Cutting a stream into frames

A receive buffer is cut from the front. When its first eight bytes are a valid
header, the frame is taken as soon as its body is complete; when they are not,
two bytes are skipped and the search goes on at the next even offset. Nothing
is taken while bytes are missing.
-/

namespace PeerRelay.Wire

/-- A header and its body. -/
structure Frame where
  header : Header
  body : Bytes
  deriving DecidableEq, Repr

namespace Frame

def toBytes (f : Frame) : Bytes := f.header.toBytes ++ f.body

/-- What is cut off the front of a stream: a frame, or two bytes in front of
which no valid header stands. The third byte of a skip is the server version
that was found there; it is not taken. -/
inductive Piece where
  | frame (f : Frame)
  | skip (magic1 magic2 serverVersion : UInt8)
  deriving DecidableEq, Repr

/-- The bytes that a piece takes off the stream. -/
def Piece.toBytes : Piece → Bytes
  | frame f => f.toBytes
  | skip m1 m2 _ => [m1, m2]

/-- Cuts one piece off the front, or nothing when more bytes are needed. -/
def next (buffer : Bytes) : Option (Piece × Bytes) :=
  match Header.read buffer with
  | none => none
  | some (header, rest) =>
    if header.isValid then
      if rest.length < header.bodyLength.toNat then none
      else
        some (.frame ⟨header, rest.take header.bodyLength.toNat⟩,
          rest.drop header.bodyLength.toNat)
    else some (.skip header.magic1 header.magic2 header.serverVersion, buffer.drop 2)

/-- What is cut off and what stays make up the buffer. -/
theorem toBytes_append_of_next {buffer rest : Bytes} {piece : Piece}
    (h : next buffer = some (piece, rest)) : piece.toBytes ++ rest = buffer := by
  unfold next at h
  cases hr : Header.read buffer with
  | none => simp [hr] at h
  | some p =>
    obtain ⟨header, after⟩ := p
    have hb := Header.eq_toBytes_append_of_read hr
    simp only [hr] at h
    split at h
    · split at h
      · cases h
      · cases h
        simp [Piece.toBytes, Frame.toBytes, hb]
    · cases h
      simp [Piece.toBytes, hb, Header.toBytes]

theorem length_lt_of_next {buffer rest : Bytes} {piece : Piece}
    (h : next buffer = some (piece, rest)) : rest.length < buffer.length := by
  have := congrArg List.length (toBytes_append_of_next h)
  cases piece <;> simp [Piece.toBytes, Frame.toBytes] at this <;> omega

/-- Cuts pieces off the front until more bytes are needed. -/
def drain (buffer : Bytes) : List Piece × Bytes :=
  match _h : next buffer with
  | none => ([], buffer)
  | some (piece, rest) =>
    let (pieces, left) := drain rest
    (piece :: pieces, left)
termination_by buffer.length
decreasing_by exact length_lt_of_next _h

theorem drain_of_next_eq_none {buffer : Bytes} (h : next buffer = none) :
    drain buffer = ([], buffer) := by
  rw [drain]
  split
  · rfl
  · rename_i h'
    rw [h] at h'
    cases h'

theorem drain_of_next_eq_some {buffer rest : Bytes} {piece : Piece}
    (h : next buffer = some (piece, rest)) :
    drain buffer = (piece :: (drain rest).1, (drain rest).2) := by
  rw [drain]
  split
  · rename_i h'
    rw [h] at h'
    cases h'
  · rename_i h'
    rw [h] at h'
    cases h'
    rfl

end Frame

/-- The error that a skip is reported as. -/
def Frame.Piece.error? : Frame.Piece → Option Error
  | .frame _ => none
  | .skip m1 m2 v => some (.badHeader m1 m2 v)

end PeerRelay.Wire
