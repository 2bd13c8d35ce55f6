import PeerRelay.Guid
import PeerRelay.Net.Ip
import PeerRelay.Wire.Frame

/-!
# Requests

What a client asks of the relay, and the bodies it asks it with. Bytes after
the last field of a body are ignored. A guid and a game id are written as a
length byte and at most 255 bytes.
-/

namespace PeerRelay

/-- The number a session is known by once it has logged in. -/
abbrev SessionId := UInt32

/-- The number a relay channel is known by. -/
abbrev ChannelId := UInt32

/-- A request of a client. The private address of a login is kept as sent and
handed on untouched; the game id of a proxy request is for show only. -/
inductive Request where
  | heartbeat
  | login (guid : Guid) (privateAddr : Ipv4)
  | proxy (source destination : SessionId) (gameId : String)
  | getPeers (requester : SessionId)
  deriving DecidableEq, Repr

namespace Wire

/-- A length byte and as many of the bytes as it can count. -/
def shortBytes (bytes : Bytes) : Bytes :=
  let kept := bytes.take 255
  UInt8.ofNat kept.length :: kept

/-- Takes a length byte and that many bytes off the rest of a body. A shortfall
is counted against the whole body. -/
def readShort (field : Field) (body rest : Bytes) : Except Error (Bytes × Bytes) :=
  match rest with
  | [] => .error (.truncated field 1 0)
  | n :: rest =>
    if rest.length < n.toNat then
      .error (.truncated field (body.length - rest.length + n.toNat) body.length)
    else .ok (rest.take n.toNat, rest.drop n.toNat)

end Wire

namespace Request

open Wire

def opcode : Request → Opcode
  | heartbeat => .heartbeat
  | login .. => .login
  | proxy .. => .proxy
  | getPeers .. => .getPeers

/-- The body of a request. -/
def body : Request → Bytes
  | heartbeat => []
  | login guid privateAddr => shortBytes guid.bytes ++ privateAddr.octets
  | proxy source destination gameId =>
    little32 source ++ little32 destination ++ shortBytes (Text.Utf8.encode gameId)
  | getPeers requester => little32 requester

/-- The frame of a request, under a fresh header. -/
def frame (r : Request) : Frame :=
  ⟨{ Header.fresh r.opcode with bodyLength := UInt16.ofNat r.body.length }, r.body⟩

def encode (r : Request) : Bytes := r.frame.toBytes

/-- A guid, then the four octets of the private address. -/
def decodeLogin (body : Bytes) : Except Error Request := do
  let (guid, rest) ← readShort .loginGuid body body
  match rest with
  | a :: b :: c :: d :: _ => return login ⟨guid⟩ ⟨a, b, c, d⟩
  | _ => throw (.truncated .loginPrivateAddress 4 rest.length)

/-- The two session ids, then the game id. -/
def decodeProxy (body : Bytes) : Except Error Request :=
  match body with
  | a :: b :: c :: d :: e :: f :: g :: h :: rest => do
    let (gameId, _) ← readShort .proxyGameId body rest
    return proxy (ofLittle32 a b c d) (ofLittle32 e f g h) (Text.Utf8.decodeLossy gameId)
  | _ => throw (.truncated .proxyIds 8 body.length)

def decodeGetPeers (body : Bytes) : Except Error Request :=
  match body with
  | a :: b :: c :: d :: _ => return getPeers (ofLittle32 a b c d)
  | _ => throw (.truncated .requesterId 4 body.length)

/-- Reads the body of a frame by the function its header names. -/
def decode (f : Frame) : Except Error Request :=
  match Opcode.ofCode? f.header.function with
  | none => .error (.unknownFunction f.header.function)
  | some .heartbeat => .ok heartbeat
  | some .login => decodeLogin f.body
  | some .proxy => decodeProxy f.body
  | some .getPeers => decodeGetPeers f.body
  | some .access => .error (.notARequest .access)
  | some .stopProxy => .error (.notARequest .stopProxy)

end Request

end PeerRelay
