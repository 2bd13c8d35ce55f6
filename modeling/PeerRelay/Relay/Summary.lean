import PeerRelay.Relay.State

/-!
# Summaries

What the relay tells about its sessions and channels: the live sessions and
the listed channels, each list in the order of the ids.
-/

namespace PeerRelay

/-- What is told about a session. -/
structure Session.Summary where
  id : SessionId
  guid : Guid
  peer : SocketAddr
  role : Role
  loggedIn : Bool
  srcChannels : Nat
  dstChannels : Nat
  /-- Whole seconds since the session began. -/
  age : Nat
  deriving DecidableEq, Repr

/-- What is told about a channel. -/
structure Channel.Summary where
  id : ChannelId
  state : Channel.State
  srcSession : SessionId
  dstSession : SessionId
  srcRelay : SocketAddr
  dstRelay : SocketAddr
  srcRemote : SocketAddr
  dstRemote : SocketAddr
  traffic : Traffic
  /-- Whole seconds since the channel was made. -/
  age : Nat
  deriving DecidableEq, Repr

/-- Whole seconds between two instants in nanoseconds. -/
def secondsBetween (start now : Nat) : Nat := (now - start) / 1000000000

def Session.summary (s : Session) (now : Nat) : Session.Summary where
  id := s.id
  guid := s.guid
  peer := s.peer
  role := s.role
  loggedIn := s.loggedIn
  srcChannels := s.srcChannels.size
  dstChannels := s.dstChannels.size
  age := secondsBetween s.startedAt now

def Channel.summary (c : Channel) (now : Nat) : Channel.Summary where
  id := c.id
  state := c.state
  srcSession := c.src.sessionId
  dstSession := c.dst.sessionId
  srcRelay := c.src.relay
  dstRelay := c.dst.relay
  srcRemote := c.src.remote
  dstRemote := c.dst.remote
  traffic := c.traffic
  age := secondsBetween c.createdAt now

namespace Relay

/-- The live sessions by id. -/
def sessionSummaries (r : Relay) : List Session.Summary :=
  (r.liveSessions.map (fun s => (r.session s).summary r.now)).mergeSort
    (fun a b => decide (a.id ≤ b.id))

/-- The listed channels by id. -/
def channelSummaries (r : Relay) : List Channel.Summary :=
  (r.listed.values.map (fun c => (r.channel c).summary r.now)).mergeSort
    (fun a b => decide (a.id ≤ b.id))

/-- The totals that are told about the relay as a whole. -/
structure Stats where
  sessions : Nat
  directoryEntries : Nat
  channels : Nat
  totalSessions : UInt64
  totalChannels : UInt64
  bytes : UInt64
  packets : UInt64
  dropped : UInt64
  /-- Whole seconds since the relay began. -/
  uptime : Nat
  deriving DecidableEq, Repr

def stats (r : Relay) : Stats where
  sessions := r.live.size
  directoryEntries := r.directory.size
  channels := r.listed.size
  totalSessions := r.metrics.sessions
  totalChannels := r.metrics.channels
  bytes := r.metrics.bytesRelayed
  packets := r.metrics.packetsRelayed
  dropped := r.metrics.dropped
  uptime := secondsBetween 0 r.now

end Relay

end PeerRelay
