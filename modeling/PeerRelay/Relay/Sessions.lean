import PeerRelay.Relay.Channels

/-!
# Sessions of a relay

How a session begins, logs in and ends. A login takes the guid and the next id;
a discoverable session is also entered under its id and in the directory. The
end of a session stops every channel it takes part in, undoes the login, and
gives its connection's place back.
-/

namespace PeerRelay.Relay

/-! ## Connections -/

/-- Takes a place for a connection, unless all are taken. -/
def reserveConnection : Op Bool := .atomic fun r =>
  if r.hasCapacity then (true, { r with connections := r.connections + 1 })
  else (false, r.count Metrics.connectionRejected)

/-- Gives the place of a connection back. -/
def releaseConnection : Op Unit := .modify fun r => { r with connections := r.connections - 1 }

/-- Begins a session on a connection that has a place. -/
def startSession (role : Role) (peer localAddr : SocketAddr) (held : Bool) :
    Op SessionRef := .atomic fun r =>
  let s := r.sessions.length
  let r : Relay := { r with
    sessions := r.sessions ++ [{ role, peer, localAddr, held, startedAt := r.now }]
    live := (r.live.insert? s ()).getD r.live
    metrics := r.metrics.sessionOpened }
  (s, r.arm { due := r.timer + r.config.loginTimeout, duty := .login s })

/-- Takes a session off the live ones, if it is there. -/
def dropLive (s : SessionRef) : Op Bool := .atomic fun r =>
  (r.live.contains s, { r with live := r.live.erase s })

/-- Gives back what an ended session holds of the relay: its place, once. -/
def detach (s : SessionRef) : Op Unit := do
  if ← dropLive s then
    releaseConnection
    .modify (·.count Metrics.sessionClosed)

/-! ## Logging in and out -/

/-- Takes a guid, unless a session holds it. -/
def reserveGuid (guid : Guid) : Op Bool := .atomic fun r =>
  match r.guids.reserve? guid with
  | some guids => (true, { r with guids })
  | none => (false, r)

def releaseGuid (guid : Guid) : Op Unit := .modify fun r =>
  { r with guids := r.guids.erase guid }

/-- Takes the next session id. -/
def takeSessionId : Op SessionId := .atomic fun r =>
  (r.nextSessionId,
    { r with nextSessionId := r.nextSessionId + 1, issued := r.issued ++ [r.nextSessionId] })

/-- Enters a session under an id, unless the id is taken. -/
def indexSession (id : SessionId) (s : SessionRef) : Op Bool := .atomic fun r =>
  match r.index.insert? id s with
  | some index => (true, { r with index })
  | none => (false, r)

def unindexSession (id : SessionId) : Op Unit := .modify fun r =>
  { r with index := r.index.erase id }

/-- Queues a change of the directory. -/
def enqueue (op : Directory.Op) : Op Unit := .modify fun r =>
  { r with directory := r.directory.enqueue op }

/-- Takes guid and id for a session. Nothing is left behind by a refusal. -/
def logIn (s : SessionRef) (guid : Guid) : Op (Except Refusal SessionId) := do
  if ← reserveGuid guid then
    let id ← takeSessionId
    let session ← .read (·.session s)
    if session.role.isDiscoverable then
      if ← indexSession id s then
        enqueue (.add ⟨id, session.peer.ip.wireIpv4, guid⟩)
        .modify (·.count Metrics.loginSucceeded)
        return .ok id
      else
        releaseGuid guid
        .modify (·.count Metrics.loginRefused)
        return .error (.idTaken id)
    else
      .modify (·.count Metrics.loginSucceeded)
      return .ok id
  else
    .modify (·.count Metrics.loginRefused)
    return .error (.duplicateGuid guid)

/-- Notes who a session's client is. -/
def recordIdentity (s : SessionRef) (id : SessionId) (guid : Guid) (privateAddr : Ipv4) :
    Op Unit :=
  .modify (·.modifySession s (fun session => { session with id, guid, privateAddr }))

def markLoggedIn (s : SessionRef) : Op Unit :=
  .modify (·.modifySession s (fun session => { session with loggedIn := true }))

/-- Marks a session as not logged in; tells whether it was. -/
def clearLogin (s : SessionRef) : Op Bool := .atomic fun r =>
  ((r.session s).loggedIn, r.modifySession s (fun session => { session with loggedIn := false }))

/-- Undoes a login, if there is one. -/
def dismiss (s : SessionRef) : Op Unit := do
  if ← clearLogin s then
    let session ← .read (·.session s)
    releaseGuid session.guid
    if session.role.isDiscoverable then
      unindexSession session.id
      enqueue (.del session.id)

/-! ## The end of a session -/

/-- Marks a session as ended; of several attempts only the first succeeds. -/
def claimEnd (s : SessionRef) : Op Bool := .atomic fun r =>
  ((r.session s).running, r.modifySession s (fun session => { session with running := false }))

/-- An operation on what a session has entered on a side. -/
def onEntries {α : Type} (s : SessionRef) (side : Side)
    (p : Steps (Registry ChannelId ChannelRef) α) : Op α :=
  p.within (fun r => (r.session s).channels side)
    (fun entries => (·.modifySession s (·.withChannels side entries)))

/-- Hands out the channels on a side of a session, as `Registry.takeAll` does. -/
def takeChannels (s : SessionRef) (side : Side) : Op (List ChannelRef) := do
  let ids ← .read fun r =>
    (r.config.channelListing s side).keys ((r.session s).channels side)
  onEntries s side (Registry.removeEach ids)

/-- Ends a session: once, whoever asks for it. -/
def stopSession (s : SessionRef) : Op Unit := do
  if ← claimEnd s then
    .modify (·.disarm (.login s))
    (← takeChannels s .src).forM fun c => do
      forgetChannel (← idOfChannel c)
      stopChannel c
    (← takeChannels s .dst).forM stopChannel
    dismiss s
    detach s

/-- Ends every live session. -/
def stopAll : Op Unit := do
  (← .read liveSessions).forM stopSession

/-! ## Closing by id -/

/-- Ends the session that is logged in under an id; tells whether there is one. -/
def closeSession (id : SessionId) : Op Bool := do
  let found ← .read fun r =>
    r.liveSessions.find? (fun s => (r.session s).loggedIn && (r.session s).id == id)
  match found with
  | none => return false
  | some s =>
    stopSession s
    return true

/-- Stops the channel that is listed under an id; tells whether there is one. -/
def closeChannel (id : ChannelId) : Op Bool := do
  match ← .read (·.listed.get? id) with
  | none => return false
  | some c =>
    stopChannel c
    return true

end PeerRelay.Relay
