import PeerRelay.Relay.Sessions

/-!
# Datagrams and watching

What the relay does when a datagram arrives at an end of a channel, and what
its alarms set off: sessions that did not log in are ended, channels with a
silent peer are stopped, and traffic is reported.
-/

namespace PeerRelay.Relay

/-- What becomes of a datagram, for the counters. -/
def countOutcome (side : Side) : Channel.Outcome → Metrics → Metrics
  | .ignored, m => m
  | .echoed _, m => m
  | .forwarded _ data, m =>
    match side with
    | .src => m.uploaded data.length
    | .dst => m.downloaded data.length
  | .dropped, m => m.datagramDropped

/-- What a datagram that arrived at an end sends out of which socket. -/
def emissions (c : ChannelRef) (side : Side) (sender : SocketAddr) :
    Channel.Outcome → List Emission
  | .ignored => []
  | .echoed data => [⟨c, side, sender, data⟩]
  | .forwarded target data => [⟨c, side.other, target, data⟩]
  | .dropped => []

/-- Takes a datagram that arrives at an end of a channel. What becomes of it, that it is sent
on and that it is counted make one step. -/
def datagram (c : ChannelRef) (side : Side) (sender : SocketAddr) (data : Bytes) : Op Unit :=
  .modify fun r =>
    let (channel, outcome) := (r.channel c).receive side r.now sender data
    let r := r.modifyChannel c (fun _ => channel)
    { r.count (countOutcome side outcome) with
      sent := r.sent ++ emissions c side sender outcome }

/-- Takes what has waited at an end since before the channel was started. -/
def takeWaiting (c : ChannelRef) (side : Side) : Op Unit := do
  let waiting ← .atomic fun r =>
    let (waiting, channel) := (r.channel c).takeWaiting side
    (waiting, r.modifyChannel c (fun _ => channel))
  waiting.forM fun (sender, data) => datagram c side sender data

/-- Ends a session whose client has not logged in. -/
def loginOverdue (s : SessionRef) : Op Unit := do
  if !(← .read fun r => (r.session s).loggedIn) then stopSession s

/-- Stops a channel if one of its peers has been silent for too long. -/
def poll (c : ChannelRef) : Op Unit := do
  let expired ← .read fun r =>
    let channel := r.channel c
    channel.started && !channel.stopped && channel.isExpired r.now
  if expired then stopChannel c

/-- Reports a channel's traffic since the last report was due. -/
def report (c : ChannelRef) : Op Unit := .modify fun r =>
  let channel := r.channel c
  if channel.started && !channel.stopped then r.modifyChannel c (·.tick r.now) else r

/-- Looks after a duty. -/
def perform : Duty → Op Unit
  | .login s => loginOverdue s
  | .poll c => poll c
  | .report c => report c

end PeerRelay.Relay
