import PeerRelay.Channel.Config
import PeerRelay.Traffic.Window
import PeerRelay.Wire.Request

/-!
# Relay channels

A channel joins two ends. Each end has a UDP socket that faces one session's
peer. An end first lets its peer in: it answers every datagram, and the one
that the policy accepts opens the end and makes its sender known. The end at
the requester opens only after the other. From then on the end passes what its
peer sends to the peer of the other end, out of the other end's socket, and
follows its peer when that sends from another port of the same address.
-/

namespace PeerRelay

/-- The place of a session among all that were ever started. -/
abbrev SessionRef := Nat

/-- The place of a channel among all that were ever created. -/
abbrev ChannelRef := Nat

namespace Channel

/-- What an end does with a datagram that arrives. -/
inductive Loop where
  /-- The channel has not been started; datagrams wait in the socket. -/
  | idle
  | authenticating
  | relaying
  /-- Nobody reads the socket any more. -/
  | ended
  deriving DecidableEq, Repr

/-- One end of a channel. -/
structure Endpoint where
  session : SessionRef
  /-- The id that the session had when the channel was made. -/
  sessionId : SessionId
  /-- The address of the end's own socket. -/
  relay : SocketAddr
  /-- Where the peer is; before the end is open, the port is not known. -/
  remote : SocketAddr
  opened : Bool := false
  /-- When the peer was last heard, in milliseconds since the channel was made. -/
  lastActive : Nat := 0
  loop : Loop := .idle
  /-- Whether others may still send out of the socket. -/
  socketHeld : Bool := true
  /-- What has arrived before the channel was started, oldest first. -/
  waiting : List (SocketAddr × Bytes) := []

/-- How far a channel has come. -/
inductive State where
  | initialized
  | authPending
  | running
  | stopped
  deriving DecidableEq, Repr

def State.title : State → String
  | initialized => "Initialized"
  | authPending => "AuthPending"
  | running => "Running"
  | stopped => "Stopped"

/-- What becomes of a datagram. -/
inductive Outcome where
  /-- It is taken without an answer. -/
  | ignored
  /-- It is answered to its sender from the end where it arrived. -/
  | echoed (data : Bytes)
  /-- It is sent on, out of the other end's socket. -/
  | forwarded (target : SocketAddr) (data : Bytes)
  /-- It is thrown away, which is counted. -/
  | dropped
  deriving DecidableEq, Repr

end Channel

/-- A channel between two sessions. Instants are in nanoseconds. -/
structure Channel where
  id : ChannelId
  config : Channel.Config
  src : Channel.Endpoint
  dst : Channel.Endpoint
  createdAt : Nat := 0
  started : Bool := false
  stopped : Bool := false
  traffic : Traffic := {}
  window : Traffic.Window := { lastAt := createdAt }
  /-- The report of the latest tick that saw traffic. -/
  lastReport : Option Traffic.Report := none

namespace Channel

/-- The end on a side. -/
def endpoint (c : Channel) : Side → Endpoint
  | .src => c.src
  | .dst => c.dst

/-- Changes the end on a side. -/
def modify (c : Channel) (side : Side) (f : Endpoint → Endpoint) : Channel :=
  match side with
  | .src => { c with src := f c.src }
  | .dst => { c with dst := f c.dst }

@[simp] theorem endpoint_modify_same (c : Channel) (side : Side) (f : Endpoint → Endpoint) :
    (c.modify side f).endpoint side = f (c.endpoint side) := by
  cases side <;> rfl

@[simp] theorem endpoint_modify_other (c : Channel) (side : Side) (f : Endpoint → Endpoint) :
    (c.modify side f).endpoint side.other = c.endpoint side.other := by
  cases side <;> rfl

def state (c : Channel) : State :=
  if c.stopped then .stopped
  else if !c.started then .initialized
  else if c.src.opened && c.dst.opened then .running
  else .authPending

/-- Whole milliseconds since the channel was made. -/
def age (c : Channel) (now : Nat) : Nat := (now - c.createdAt) / 1000000

/-- Notes that the peer of an end was heard. -/
def touch (c : Channel) (side : Side) (now : Nat) : Channel :=
  c.modify side (fun e => { e with lastActive := c.age now })

/-- Counts a datagram that an end has sent on. -/
def count (c : Channel) (side : Side) (bytes : Nat) : Channel :=
  match side with
  | .src =>
    { c with traffic := { c.traffic with
        upBytes := c.traffic.upBytes + UInt64.ofNat bytes
        upPackets := c.traffic.upPackets + 1 } }
  | .dst =>
    { c with traffic := { c.traffic with
        downBytes := c.traffic.downBytes + UInt64.ofNat bytes
        downPackets := c.traffic.downPackets + 1 } }

/-- Whether a datagram lets its sender in. The source end waits for the other. -/
def accepts (c : Channel) (side : Side) (data : Bytes) : Bool :=
  c.config.policy side data && (side == .dst || c.dst.opened)

/-- Takes a datagram at an end that is not open. An accepted one comes back as it
was, any other with its bytes zeroed, and an empty one not at all. -/
def authenticate (c : Channel) (side : Side) (now : Nat) (sender : SocketAddr)
    (data : Bytes) : Channel × Outcome :=
  let c := c.touch side now
  if data.isEmpty then (c, .ignored)
  else if c.accepts side data then
    (c.modify side (fun e => { e with remote := sender, opened := true, loop := .relaying }),
      .echoed data)
  else (c, .echoed (List.replicate data.length 0))

/-- Takes a datagram at an open end. One from another address than the peer's is
dropped and changes nothing else. -/
def relay (c : Channel) (side : Side) (now : Nat) (sender : SocketAddr)
    (data : Bytes) : Channel × Outcome :=
  if sender.ip ≠ (c.endpoint side).remote.ip then (c, .dropped)
  else
    let c := (c.modify side (fun e => { e with remote := sender })).touch side now
    let peer := c.endpoint side.other
    if data.length ≤ keepaliveLength then (c, .ignored)
    else if !peer.opened then (c, .dropped)
    else if !peer.socketHeld then (c.modify side (fun e => { e with loop := .ended }), .ignored)
    else (c.count side data.length, .forwarded peer.remote data)

/-- Takes a datagram that arrives at an end. What is longer than the end can take
is cut off. -/
def receive (c : Channel) (side : Side) (now : Nat) (sender : SocketAddr)
    (datagram : Bytes) : Channel × Outcome :=
  let data := datagram.take c.config.mtu
  match (c.endpoint side).loop with
  | .idle =>
    (c.modify side (fun e =>
      if e.socketHeld then { e with waiting := e.waiting ++ [(sender, datagram)] } else e),
      .ignored)
  | .authenticating => c.authenticate side now sender data
  | .relaying => c.relay side now sender data
  | .ended => (c, .ignored)

/-- Begins to read both sockets: once, and not after a stop. -/
def start (c : Channel) : Channel :=
  if c.stopped || c.started then c
  else
    { c with
      started := true
      src := { c.src with loop := .authenticating }
      dst := { c.dst with loop := .authenticating } }

/-- Marks the channel as stopped and lets go of both sockets, all in one step. A loop may
still have a datagram at hand. -/
def halt (c : Channel) : Channel :=
  { c with
    stopped := true
    src := { c.src with socketHeld := false }
    dst := { c.dst with socketHeld := false } }

/-- Ends the loop of an end. -/
def retire (c : Channel) (side : Side) : Channel :=
  c.modify side (fun e => { e with loop := .ended, waiting := [] })

/-- Hands out what has waited at an end. -/
def takeWaiting (c : Channel) (side : Side) : List (SocketAddr × Bytes) × Channel :=
  ((c.endpoint side).waiting, c.modify side (fun e => { e with waiting := [] }))

/-- Whether the peer of an end has been silent for longer than is allowed. -/
def isSilent (c : Channel) (side : Side) (now : Nat) : Bool :=
  c.config.expiry.any (fun limit => limit < c.age now - (c.endpoint side).lastActive)

/-- Whether a check at the instant finds an end silent for too long. -/
def isExpired (c : Channel) (now : Nat) : Bool := c.isSilent .src now || c.isSilent .dst now

/-- Moves the traffic window to a tick. The four counters are read in one step, so that no
datagram is counted between two of them. -/
def tick (c : Channel) (now : Nat) : Channel :=
  let (window, report) := c.window.advance c.traffic now
  { c with window, lastReport := report <|> c.lastReport }

end Channel

end PeerRelay
