import PeerRelay.Relay.Refusal
import PeerRelay.Relay.State

/-!
# Channels of a relay

How a channel comes about and how it ends. A channel is created for a session
that asks for another: it takes a slot, gets its two ends, is listed under its
id, and is registered with both sessions. Whatever stops it, each session that
still has it registered forgets it and is told, and with the source session's
entry the listing and the slot go.
-/

namespace PeerRelay.Relay

/-! ## Slots -/

/-- Takes a channel slot, unless all are taken. -/
def reserveSlot : Op Bool := .atomic fun r =>
  if r.config.maxChannels = 0 ∨ r.slots < r.config.maxChannels then
    (true, { r with slots := r.slots + 1 })
  else (false, r)

/-- Gives a channel slot back. -/
def releaseSlot : Op Unit := .modify fun r => { r with slots := r.slots - 1 }

/-! ## Making and listing -/

/-- The end at a session for a channel, with the socket bound after so many others.
The socket stands beside the session's own address, and the peer is expected
where the session's client is. -/
def bindEnd (r : Relay) (s : SessionRef) (bound : Nat) : Channel.Endpoint :=
  let session := r.session s
  { session := s
    sessionId := session.id
    relay := ⟨session.localAddr.ip, r.config.portOf bound, 0⟩
    remote := ⟨session.peer.ip, 0, 0⟩ }

/-- The relay with a channel between two sessions that nobody knows of yet. -/
def addChannel (id : ChannelId) (src dst : SessionRef) (r : Relay) : Relay :=
  let channel : Channel :=
    { id
      config := r.config.channel
      src := r.bindEnd src r.socketsBound
      dst := r.bindEnd dst (r.socketsBound + 1)
      createdAt := r.now }
  { r with
    channels := r.channels ++ [channel]
    socketsBound := r.socketsBound + 2
    metrics := r.metrics.channelOpened }

/-- The running session that is known by an id. -/
def findDestination (id : SessionId) : Op (Option SessionRef) := .read fun r =>
  (r.index.get? id).filter (fun s => (r.session s).running)

/-- Makes a channel under the next id. That its two sockets can be bound is assumed; what the
relay does when one of them cannot, which uses the id up and makes no channel, is left out. -/
def openChannel (src dst : SessionRef) : Op ChannelRef := .atomic fun r =>
  (r.channels.length,
    { addChannel r.nextChannelId src dst r with nextChannelId := r.nextChannelId + 1 })

/-- The id of a channel. -/
def idOfChannel (c : ChannelRef) : Op ChannelId := .read fun r => (r.channel c).id

/-- Lists a channel under its id, unless the id is taken. -/
def listChannel (id : ChannelId) (c : ChannelRef) : Op Bool := .atomic fun r =>
  match r.listed.insert? id c with
  | some listed => (true, { r with listed })
  | none => (false, r)

/-- Takes a channel off the list. -/
def unlistChannel (id : ChannelId) : Op Bool := .atomic fun r =>
  (r.listed.contains id, { r with listed := r.listed.erase id })

/-- Takes a channel off the list and gives its slot back. -/
def forgetChannel (id : ChannelId) : Op Unit := do
  if ← unlistChannel id then releaseSlot

/-! ## Registration with the sessions -/

/-- Enters a channel on a side of a session, unless the id is taken there. -/
def enter (s : SessionRef) (side : Side) (id : ChannelId) (c : ChannelRef) : Op Bool :=
  .atomic fun r =>
    match ((r.session s).channels side).insert? id c with
    | some entries => (true, r.modifySession s (·.withChannels side entries))
    | none => (false, r)

/-- Removes a channel from a side of a session, if it is there. -/
def leave (s : SessionRef) (side : Side) (id : ChannelId) : Op Bool := .atomic fun r =>
  let entries := (r.session s).channels side
  (entries.contains id, r.modifySession s (·.withChannels side (entries.erase id)))

def isRunning (s : SessionRef) : Op Bool := .read fun r => (r.session s).running

def isGone (s : SessionRef) : Op Bool := .read fun r => (r.session s).isGone

/-- Registers a channel with one of its sessions. A session that has ended in the
meantime refuses it. -/
def register (s : SessionRef) (side : Side) (id : ChannelId) (c : ChannelRef) : Op Bool := do
  if ← enter s side id c then
    if ← isRunning s then return true
    let _ ← leave s side id
    return false
  else return false

/-- Registers a channel with both of its sessions, or with neither. -/
def joinSessions (c : ChannelRef) : Op (Except Refusal Unit) := do
  let channel ← .read (·.channel c)
  let src := channel.src.session
  let dst := channel.dst.session
  if ← register src .src channel.id c then
    if ← register dst .dst channel.id c then return .ok ()
    let _ ← leave src .src channel.id
    return .error (.registration channel.id (← .read fun r => (r.session dst).id))
  else return .error (.registration channel.id (← .read fun r => (r.session src).id))

/-- Registers a channel whose sessions may be gone by now. -/
def initChannel (c : ChannelRef) : Op (Except Refusal Unit) := do
  let channel ← .read (·.channel c)
  if ← isGone channel.src.session then return .error (.sessionGone channel.src.sessionId)
  if ← isGone channel.dst.session then return .error (.sessionGone channel.dst.sessionId)
  joinSessions c

/-! ## Starting and stopping -/

def arm (alarm : Alarm) (r : Relay) : Relay := { r with alarms := r.alarms ++ [alarm] }

def disarm (duty : Duty) (r : Relay) : Relay :=
  { r with alarms := r.alarms.filter (fun a => decide (a.duty ≠ duty)) }

/-- Arms an alarm that comes back after every period, if there is a period. -/
def armEvery (period : Option Nat) (duty : Duty) (r : Relay) : Relay :=
  match period with
  | none => r
  | some 0 => r
  | some p => r.arm { due := r.timer + p, period := some p, duty }

/-- Starts a channel that was neither started nor stopped before. -/
def startChannel (c : ChannelRef) : Op Unit := .modify fun r =>
  let channel := r.channel c
  if channel.stopped || channel.started then r
  else
    ((r.modifyChannel c Channel.start).armEvery
      (channel.config.expiry.map (fun _ => channel.config.pollEvery)) (.poll c)).armEvery
      channel.config.reportEvery (.report c)

/-- Queues a response for a session's client. -/
def push (s : SessionRef) (header : Wire.Header) (response : Response) : Op Unit :=
  .modify (·.modifySession s (·.push header response))

/-- The response that tells a client that a channel is over. -/
def stopNotice (id : ChannelId) (relay : SocketAddr) : Response :=
  .stopProxy id relay.ip.wireIpv4 relay.port

/-- Tells a session that a channel is over, unless the session is too. -/
def notifyStop (s : SessionRef) (id : ChannelId) (relay : SocketAddr) : Op Unit := do
  if ← isRunning s then push s (.fresh .stopProxy) (stopNotice id relay)

/-- Lets the session at an end forget a channel and tells it. The source session's
entry takes the listing with it. A session that is gone has no entry left. -/
def closeEnd (id : ChannelId) (side : Side) (e : Channel.Endpoint) : Op Unit := do
  if ← leave e.session side id then
    if side = .src then forgetChannel id
    notifyStop e.session id e.relay

/-- Marks a channel as stopped; of several attempts only the first succeeds. -/
def claimStop (c : ChannelRef) : Op Bool := .atomic fun r =>
  (!(r.channel c).stopped, r.modifyChannel c Channel.halt)

/-- Ends the loops and the alarms of a channel. -/
def retireChannel (c : ChannelRef) : Op Unit := .modify fun r =>
  ((r.modifyChannel c (fun ch => (ch.retire .src).retire .dst)).disarm (.poll c)).disarm
    (.report c)

/-- Counts a channel that was stopped and how long it lived. -/
def countClosed (c : ChannelRef) : Op Unit := .modify fun r =>
  r.count (·.channelClosed (r.now - (r.channel c).createdAt))

/-- Stops a channel: once, whoever asks for it. -/
def stopChannel (c : ChannelRef) : Op Unit := do
  if ← claimStop c then
    let channel ← .read (·.channel c)
    closeEnd channel.id .src channel.src
    closeEnd channel.id .dst channel.dst
    retireChannel c
    countClosed c

/-! ## Creating a channel on request -/

/-- Finds the session that is asked for and makes a channel to it. Of the ways to fail, the one
in which a socket cannot be bound is left out; like the others it would give the slot back. -/
def bindChannel (src : SessionRef) (id : SessionId) :
    Op (Except Refusal (ChannelRef × SessionRef)) := do
  match ← findDestination id with
  | none => return .error (.notFound id)
  | some dst =>
    if dst = src then return .error .selfProxy
    return .ok (← openChannel src dst, dst)

/-- Creates a channel from a session to the one with an id, lists it, and registers
it with both. It is not started yet. Neither session is gone as long as this lasts,
though either may end. -/
def createChannel (src : SessionRef) (id : SessionId) :
    Op (Except Refusal (ChannelRef × SessionRef)) := do
  if ← reserveSlot then
    match ← bindChannel src id with
    | .error refusal =>
      releaseSlot
      return .error refusal
    | .ok (c, dst) =>
      let channelId ← idOfChannel c
      if ← listChannel channelId c then
        match ← joinSessions c with
        | .error refusal =>
          forgetChannel channelId
          stopChannel c
          return .error refusal
        | .ok () => return .ok (c, dst)
      else
        releaseSlot
        stopChannel c
        return .error (.registration channelId (← .read fun r => (r.session src).id))
  else return .error (.channelLimit (← .read fun r => r.config.maxChannels))

end PeerRelay.Relay
