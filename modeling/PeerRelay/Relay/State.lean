import PeerRelay.Directory
import PeerRelay.Metrics.Counters
import PeerRelay.Session
import PeerRelay.Steps

/-!
# The state of a relay

Sessions and channels stay in the state for good, at the place where they
came in; what a relay currently knows of them is in its registries. A place
where nobody has come in yet reads as a session, or a channel, that is over.
-/

namespace PeerRelay

/-- What is to be looked after when an alarm is due. -/
inductive Duty where
  /-- The session must have logged in by now. -/
  | login (session : SessionRef)
  /-- The channel's peers must not have been silent for too long. -/
  | poll (channel : ChannelRef)
  /-- The channel's traffic is to be reported. -/
  | report (channel : ChannelRef)
  deriving DecidableEq, Repr

/-- A duty and when it is due, in milliseconds; one that comes back has a period. -/
structure Alarm where
  due : Nat
  period : Option Nat := none
  duty : Duty
  deriving DecidableEq, Repr

/-- A datagram that left a relay socket. -/
structure Emission where
  channel : ChannelRef
  /-- The end whose socket it left. -/
  side : Side
  target : SocketAddr
  data : Bytes
  deriving DecidableEq, Repr

namespace Relay

/-- The limits of a relay; a limit of zero is none. Times are in milliseconds. -/
structure Config where
  /-- How long a client may take to log in. -/
  loginTimeout : Nat := 30000
  maxSessions : Nat := 0
  maxChannels : Nat := 0
  channel : Channel.Config := {}
  /-- The port that the system gives to the socket bound after so many others. -/
  portOf : Nat → UInt16 := fun n => UInt16.ofNat (32768 + n % 28232)
  /-- The order in which a session that ends goes through its channels on a side. A session
  ends once, so that no order is left out. -/
  channelListing : SessionRef → Side → Registry.Listing ChannelId := fun _ _ => .oldestFirst
  /-- The order in which the live sessions are gone through. -/
  sessionListing : Registry.Listing SessionRef := .oldestFirst

/-- The id of the first session that logs in. -/
def firstSessionId : SessionId := 1000

/-- The id of the first channel. -/
def firstChannelId : ChannelId := 1

end Relay

/-- Everything a relay knows and has done. -/
structure Relay where
  config : Relay.Config := {}
  /-- Every session that was ever started. -/
  sessions : List Session := []
  /-- Every channel that was ever created. -/
  channels : List Channel := []
  /-- The sessions that have not ended. -/
  live : Registry SessionRef Unit := .empty
  /-- The discoverable sessions that are logged in. -/
  index : Registry SessionId SessionRef := .empty
  /-- The guids of the sessions that are logged in. -/
  guids : GuidSet := .empty
  /-- The channels that can be found by their ids. -/
  listed : Registry ChannelId ChannelRef := .empty
  directory : Directory Directory.Memory := { store := {} }
  metrics : Metrics := {}
  nextSessionId : SessionId := Relay.firstSessionId
  /-- Every session id that was ever taken, oldest first. -/
  issued : List SessionId := []
  nextChannelId : ChannelId := Relay.firstChannelId
  /-- The connections that hold a place. -/
  connections : Nat := 0
  /-- The channels that hold a place, those being created among them. -/
  slots : Nat := 0
  /-- How many relay sockets were ever bound. -/
  socketsBound : Nat := 0
  /-- The instant, in nanoseconds, that activity is measured with. -/
  now : Nat := 0
  /-- The instant, in milliseconds, that alarms go by. -/
  timer : Nat := 0
  alarms : List Alarm := []
  /-- Every datagram that left a relay socket, oldest first. -/
  sent : List Emission := []

/-- A session that is over. -/
def Session.vacant : Session where
  role := .client
  peer := ⟨.v4 .unspecified, 0, 0⟩
  localAddr := ⟨.v4 .unspecified, 0, 0⟩
  running := false

/-- A channel that is over. -/
def Channel.vacant : Channel where
  id := 0
  config := {}
  src := { session := 0, sessionId := 0, relay := ⟨.v4 .unspecified, 0, 0⟩,
           remote := ⟨.v4 .unspecified, 0, 0⟩, loop := .ended, socketHeld := false }
  dst := { session := 0, sessionId := 0, relay := ⟨.v4 .unspecified, 0, 0⟩,
           remote := ⟨.v4 .unspecified, 0, 0⟩, loop := .ended, socketHeld := false }
  stopped := true

namespace Relay

/-- An operation on a relay. -/
abbrev Op (α : Type) := Steps Relay α

def session (r : Relay) (s : SessionRef) : Session := r.sessions.getD s .vacant

def channel (r : Relay) (c : ChannelRef) : Channel := r.channels.getD c .vacant

def modifySession (s : SessionRef) (f : Session → Session) (r : Relay) : Relay :=
  { r with sessions := r.sessions.modify s f }

def modifyChannel (c : ChannelRef) (f : Channel → Channel) (r : Relay) : Relay :=
  { r with channels := r.channels.modify c f }

/-- Changes the counters. -/
def count (f : Metrics → Metrics) (r : Relay) : Relay := { r with metrics := f r.metrics }

theorem session_modifySession (r : Relay) (s t : SessionRef) (f : Session → Session) :
    (r.modifySession s f).session t =
      if s = t ∧ t < r.sessions.length then f (r.session t) else r.session t := by
  simp only [session, modifySession, List.getD_eq_getElem?_getD, List.getElem?_modify]
  by_cases hst : s = t <;> by_cases ht : t < r.sessions.length <;> simp [hst, ht]

theorem channel_modifyChannel (r : Relay) (c d : ChannelRef) (f : Channel → Channel) :
    (r.modifyChannel c f).channel d =
      if c = d ∧ d < r.channels.length then f (r.channel d) else r.channel d := by
  simp only [channel, modifyChannel, List.getD_eq_getElem?_getD, List.getElem?_modify]
  by_cases hcd : c = d <;> by_cases hd : d < r.channels.length <;> simp [hcd, hd]

/-- Whether another connection would find a place. -/
def hasCapacity (r : Relay) : Bool :=
  r.config.maxSessions == 0 || r.connections < r.config.maxSessions

/-- The live sessions as they are listed. -/
def liveSessions (r : Relay) : List SessionRef := r.config.sessionListing.keys r.live

/-- The channels that a session has entered on a side, as they are listed. -/
def channelsOn (r : Relay) (s : SessionRef) (side : Side) : List ChannelRef :=
  (r.config.channelListing s side).values ((r.session s).channels side)

/-- The peer table as last published. -/
def peerTable (r : Relay) : Bytes := r.directory.snapshot

/-- Lets the directory apply everything that is queued. -/
def syncDirectory (r : Relay) : Relay :=
  { r with directory := (r.directory.sync Directory.Memory.backend).2 }

end Relay

end PeerRelay
