import PeerRelay.Relay.Sessions

/-!
# Serving requests

A session handles the frames of its client in the order they come in. Every
answer is written under the header of the request; what is pushed to the other
session of a new channel is written under it too. A frame that is not a request
is passed over, a login or proxy request that is cut short is refused.
-/

namespace PeerRelay.Relay

open Wire (Frame Header Opcode ResultCode)

/-- Refuses a request whose body is cut short. -/
def refuseMalformed (s : SessionRef) (header : Header) : Op Unit := do
  match Opcode.ofCode? header.function with
  | some .login => push s header (.login .failed (← .read fun r => (r.session s).id))
  | some .proxy => push s header (.proxyFailure .failed)
  | _ => return

/-- Logs a client in, unless it is logged in already. -/
def serveLogin (s : SessionRef) (header : Header) (guid : Guid) (privateAddr : Ipv4) :
    Op Unit := do
  let session ← .read (·.session s)
  if session.loggedIn then
    push s header (.login .repeatLogin session.id)
  else
    match ← logIn s guid with
    | .error refusal =>
      push s header (.login refusal.result (← .read fun r => (r.session s).id))
    | .ok id =>
      recordIdentity s id guid privateAddr
      markLoggedIn s
      .modify (·.disarm (.login s))
      push s header (.login .success id)
      -- The session may have ended in between; then nobody else undoes the login.
      if !(← isRunning s) then dismiss s

/-- Joins the client to the session with an id. What the client says its own id is
does not count. -/
def serveProxy (s : SessionRef) (header : Header) (destination : SessionId) : Op Unit := do
  let session ← .read (·.session s)
  if !session.role.mayOriginate then
    push s header (.proxyFailure .forbidden)
  else if !session.loggedIn then
    push s header (.proxyFailure .notLoggedIn)
  else
    match ← createChannel s destination with
    | .error refusal => push s header (.proxyFailure refusal.result)
    | .ok (c, dst) =>
      startChannel c
      let channel ← .read (·.channel c)
      let session ← .read (·.session s)
      push dst header (.access session.id channel.id channel.dst.relay.ip.wireIpv4
        channel.dst.relay.port session.privateAddr)
      push s header (.proxy .success channel.id channel.src.relay.ip.wireIpv4
        channel.src.relay.port)

/-- Sends the peer table; a pure server is shown an empty one. -/
def servePeers (s : SessionRef) (header : Header) : Op Unit := do
  let table ← .read fun r =>
    if (r.session s).role.mayOriginate then r.peerTable else PeerTable.empty
  push s header (.peers table)

/-- Handles a frame. -/
def serveFrame (s : SessionRef) (frame : Frame) : Op Unit :=
  match Request.decode frame with
  | .ok .heartbeat => return
  | .ok (.login guid privateAddr) => serveLogin s frame.header guid privateAddr
  | .ok (.proxy _ destination _) => serveProxy s frame.header destination
  | .ok (.getPeers _) => servePeers s frame.header
  | .error (.truncated ..) => refuseMalformed s frame.header
  | .error _ => return

/-- Handles a piece of the stream; bytes that were skipped are counted. -/
def servePiece (s : SessionRef) : Frame.Piece → Op Unit
  | .frame frame => serveFrame s frame
  | .skip .. => .modify (·.count Metrics.resynced)

/-- Handles pieces one after another, as long as the session runs. -/
def servePieces (s : SessionRef) : List Frame.Piece → Op Unit
  | [] => return
  | piece :: rest => do
    servePiece s piece
    if ← isRunning s then servePieces s rest

/-- Takes bytes that arrived on a session's connection: handles the frames that are
now complete and keeps the rest. A session that has ended reads nothing. -/
def receive (s : SessionRef) (data : Bytes) : Op Unit := do
  let session ← .read (·.session s)
  if session.running then
    let (pieces, unread) := Frame.drain (session.unread ++ data)
    .modify (·.modifySession s (fun session => { session with unread }))
    servePieces s pieces

end PeerRelay.Relay
