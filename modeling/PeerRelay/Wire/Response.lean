import PeerRelay.Wire.Request

/-!
# Responses and pushes

What the relay tells a client. A reply is written under a copy of the header
it answers, so its versions and key index are the client's own; only function
and body length are filled in. Relay ports are the one field that travels most
significant byte first.
-/

namespace PeerRelay

/-- What the relay sends on a control connection. A peer table travels as it
stands; see the module on peer tables for its layout. -/
inductive Response where
  | login (result : Wire.ResultCode) (id : SessionId)
  | proxy (result : Wire.ResultCode) (channel : ChannelId) (addr : Ipv4) (port : UInt16)
  | access (source : SessionId) (channel : ChannelId) (addr : Ipv4) (port : UInt16)
      (privateAddr : Ipv4)
  | stopProxy (channel : ChannelId) (addr : Ipv4) (port : UInt16)
  | peers (table : Bytes)
  deriving DecidableEq, Repr

namespace Response

open Wire

def opcode : Response → Opcode
  | login .. => .login
  | proxy .. => .proxy
  | access .. => .access
  | stopProxy .. => .stopProxy
  | peers .. => .getPeers

/-- The body of a response. -/
def body : Response → Bytes
  | login result id => result.code :: little32 id
  | proxy result channel addr port =>
    result.code :: (little32 channel ++ addr.wire ++ big16 port)
  | access source channel addr port privateAddr =>
    little32 source ++ little32 channel ++ addr.wire ++ big16 port ++ privateAddr.octets
  | stopProxy channel addr port => little32 channel ++ addr.wire ++ big16 port
  | peers table => table

/-- The frame of a response, under a copy of the header. The length field
counts modulo its sixteen bits. -/
def frame (r : Response) (header : Header) : Frame :=
  ⟨{ header.withFunction r.opcode with bodyLength := UInt16.ofNat r.body.length }, r.body⟩

def encode (r : Response) (header : Header) : Bytes := (r.frame header).toBytes

def decodeLogin (body : Bytes) : Except Error Response :=
  match body with
  | r :: a :: b :: c :: d :: _ => .ok (login (.ofCode r) (ofLittle32 a b c d))
  | _ => .error (.truncated .loginReply 5 body.length)

def decodeProxy (body : Bytes) : Except Error Response :=
  match body with
  | r :: a :: b :: c :: d :: i :: j :: k :: l :: hi :: lo :: _ =>
    .ok (proxy (.ofCode r) (ofLittle32 a b c d) ⟨l, k, j, i⟩ (ofBig16 hi lo))
  | _ => .error (.truncated .proxyReply 11 body.length)

def decodeAccess (body : Bytes) : Except Error Response :=
  match body with
  | s :: t :: u :: v :: a :: b :: c :: d :: i :: j :: k :: l :: hi :: lo ::
      p :: q :: x :: y :: _ =>
    .ok (access (ofLittle32 s t u v) (ofLittle32 a b c d) ⟨l, k, j, i⟩ (ofBig16 hi lo)
      ⟨p, q, x, y⟩)
  | _ => .error (.truncated .accessNotice 18 body.length)

def decodeStopProxy (body : Bytes) : Except Error Response :=
  match body with
  | a :: b :: c :: d :: i :: j :: k :: l :: hi :: lo :: _ =>
    .ok (stopProxy (ofLittle32 a b c d) ⟨l, k, j, i⟩ (ofBig16 hi lo))
  | _ => .error (.truncated .stopNotice 10 body.length)

/-- Reads the body of a frame that the relay sent. -/
def decode (f : Frame) : Except Error Response :=
  match Opcode.ofCode? f.header.function with
  | none => .error (.unknownFunction f.header.function)
  | some .heartbeat => .error (.unknownFunction Opcode.heartbeat.code)
  | some .login => decodeLogin f.body
  | some .proxy => decodeProxy f.body
  | some .access => decodeAccess f.body
  | some .stopProxy => decodeStopProxy f.body
  | some .getPeers => .ok (peers f.body)

/-- The reply to a proxy request that came to nothing. -/
def proxyFailure (result : ResultCode) : Response :=
  proxy result 0 .unspecified 0

end Response

end PeerRelay
