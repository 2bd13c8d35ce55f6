import PeerRelay.Wire.Response

/-!
# Peer tables

A peer table is a count byte followed by that many entries of eight bytes: a
session id and an address. The count byte bounds a table at 255 entries; the
ones past that are left out.
-/

namespace PeerRelay

/-- A session that others may reach, and where it connected from. -/
structure Peer where
  id : SessionId
  addr : Ipv4
  deriving DecidableEq, Repr

/-- The eight bytes of an entry. -/
def Peer.toBytes (p : Peer) : Bytes := Wire.little32 p.id ++ p.addr.wire

namespace PeerTable

/-- The most entries a table can hold. -/
def capacity : Nat := 255

/-- The table of the first entries, as many as fit. -/
def encode (entries : List Peer) : Bytes :=
  let kept := entries.take capacity
  UInt8.ofNat kept.length :: kept.flatMap Peer.toBytes

/-- The table with no entry. -/
def empty : Bytes := [0]

/-- Reads so many entries. -/
def readEntries : Nat → Bytes → List Peer
  | n + 1, a :: b :: c :: d :: i :: j :: k :: l :: rest =>
    ⟨Wire.ofLittle32 a b c d, ⟨l, k, j, i⟩⟩ :: readEntries n rest
  | _, _ => []

/-- Reads a table; bytes after the last entry are ignored. -/
def decode (table : Bytes) : Except Wire.Error (List Peer) :=
  match table with
  | [] => .error (.truncated .peerTable 1 0)
  | n :: rest =>
    if table.length < 1 + 8 * n.toNat then
      .error (.truncated .peerTable (1 + 8 * n.toNat) table.length)
    else .ok (readEntries n.toNat rest)

/-- The number of entries that a table says it has. -/
def count (table : Bytes) : Nat := (table.headD 0).toNat

end PeerTable

end PeerRelay
