import PeerRelay.Channel
import PeerRelay.Registry
import PeerRelay.Role
import PeerRelay.Wire.Response

/-!
# Control sessions

A session is one control connection. It keeps what it knows of its client, the
channels that the client takes part in, the bytes that do not make a frame yet,
and everything that was queued for the client to read.
-/

namespace PeerRelay

/-- A response and the header that it is written under. -/
structure Push where
  header : Wire.Header
  response : Response
  deriving DecidableEq, Repr

def Push.frame (p : Push) : Wire.Frame := p.response.frame p.header

def Push.encode (p : Push) : Bytes := p.response.encode p.header

/-- A control connection and all that belongs to it. -/
structure Session where
  role : Role
  /-- Where the client connects from. -/
  peer : SocketAddr
  /-- The relay's own address on the connection. -/
  localAddr : SocketAddr
  /-- The instant, in nanoseconds, at which the session began. -/
  startedAt : Nat := 0
  /-- Zero until the client has logged in. -/
  id : SessionId := 0
  guid : Guid := {}
  privateAddr : Ipv4 := .unspecified
  loggedIn : Bool := false
  running : Bool := true
  /-- Whether someone outside the relay keeps hold of the session. -/
  held : Bool := false
  /-- The channels that the client asked for. -/
  srcChannels : Registry ChannelId ChannelRef := .empty
  /-- The channels that others asked for to reach the client. -/
  dstChannels : Registry ChannelId ChannelRef := .empty
  /-- The end of the stream so far that is not a whole frame. -/
  unread : Bytes := []
  /-- Everything queued for the client since the session began, oldest first. -/
  outbox : List Push := []

namespace Session

/-- The channels in which the session has the end on a side. -/
def channels (s : Session) : Side → Registry ChannelId ChannelRef
  | .src => s.srcChannels
  | .dst => s.dstChannels

/-- The session with other channels on a side. -/
def withChannels (s : Session) (side : Side) (entries : Registry ChannelId ChannelRef) :
    Session :=
  match side with
  | .src => { s with srcChannels := entries }
  | .dst => { s with dstChannels := entries }

/-- Nothing is left of a session that has ended and that nobody holds. -/
def isGone (s : Session) : Bool := !s.running && !s.held

/-- Queues a response for the client. -/
def push (s : Session) (header : Wire.Header) (response : Response) : Session :=
  { s with outbox := s.outbox ++ [⟨header, response⟩] }

/-- The bytes that the client is sent. -/
def written (s : Session) : Bytes := s.outbox.flatMap Push.encode

end Session

end PeerRelay
