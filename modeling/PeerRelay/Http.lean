import PeerRelay.Relay.Event
import PeerRelay.Relay.Summary
import PeerRelay.Text.Blank
import PeerRelay.Text.Number
import PeerRelay.Text.Utf8

/-!
# Health, metrics and administration over HTTP

Health, readiness and metrics are open to everyone. What lies under `/admin`
exists only when a token that is not empty has been set, and is refused to
requests that do not carry exactly this token. A method that a path does not
have, and an id that is no number, are refused before the token is looked at.
How paths are taken apart and ids are read is up to a router.
-/

namespace PeerRelay.Http

/-- A request, with the values of its authorization headers in order. -/
structure Request where
  method : String := "GET"
  path : String
  authorization : List Bytes := []

/-- What a path stands for. -/
inductive Resource where
  | health
  | ready
  | metrics
  | sessions
  | session (id : String)
  | channels
  | channel (id : String)
  | stats
  deriving DecidableEq, Repr

/-- The content of a response. -/
inductive Body where
  | empty
  | metrics (lines : List String)
  | sessions (list : List Session.Summary)
  | channels (list : List Channel.Summary)
  | stats (stats : Relay.Stats)
  /-- Something was closed. -/
  | closed (message : String)

def Body.contentType? : Body → Option String
  | empty => none
  | metrics _ => some "text/plain; version=0.0.4"
  | _ => some "application/json"

structure Response where
  status : Nat := 200
  contentType : Option String := none
  body : Body := .empty
  /-- What a refusal says beside its status. -/
  text : String := ""

namespace Response

/-- A response without content. -/
def bare (status : Nat) : Response := { status }

/-- A response with content. -/
def ok (body : Body) : Response := { contentType := body.contentType?, body }

/-- A refusal that says why. -/
def refusal (status : Nat) (text : String) : Response :=
  { status, contentType := some "text/plain; charset=utf-8", text }

/-- The response without its content, as it answers a request for the head alone. -/
def headOnly (a : Response) : Response := { a with body := .empty, text := "" }

end Response

/-! ## Paths -/

/-- How a router takes a request's target apart. -/
structure Router where
  /-- The segments of the path. -/
  segments : String → List String
  /-- The id that a segment stands for, or what is said of one that is no id. -/
  readId : String → Except String UInt32

/-- What follows the scheme of a target. -/
def afterScheme? : List Char → Option (List Char)
  | ':' :: '/' :: '/' :: rest => some rest
  | _ :: rest => afterScheme? rest
  | [] => none

/-- Whether a character ends the path of a target. -/
def endsPath (c : Char) : Bool := c == '?' || c == '#'

/-- The path of a request's target: what comes before the query, and after the host if
the target begins with a scheme. A target that is nothing but a host has none. -/
def targetPath (target : String) : List Char :=
  let cs := target.toList
  let cs :=
    if cs.head? = some '/' then cs
    else ((afterScheme? cs).getD []).dropWhile (fun c => c != '/' && !endsPath c)
  cs.takeWhile (fun c => !endsPath c)

/-- The segments of a path. -/
def segments (path : String) : List String :=
  (Text.splitOn '/' (targetPath path)).map String.ofList

/-- What the segments of a path stand for, with or without administration. -/
def Resource.ofSegments? (admin : Bool) (segments : List String) : Option Resource :=
  match segments, admin with
  | ["", "health"], _ => some health
  | ["", "ready"], _ => some ready
  | ["", "metrics"], _ => some metrics
  | ["", "admin", "sessions"], true => some sessions
  | ["", "admin", "channels"], true => some channels
  | ["", "admin", "stats"], true => some stats
  | ["", "admin", "sessions", id], true => if id = "" then none else some (session id)
  | ["", "admin", "channels", id], true => if id = "" then none else some (channel id)
  | _, _ => none

/-- Whether a resource can be asked for with a method. -/
def Resource.allows (method : String) : Resource → Bool
  | session _ | channel _ => method == "DELETE"
  | _ => method == "GET" || method == "HEAD"

/-- Replaces every percent sign that two hexadecimal digits follow, with those
digits, by the byte they stand for. -/
def percentDecode : Bytes → Bytes
  | [] => []
  | 0x25 :: hi :: lo :: rest =>
    match Text.hexValue? (Char.ofNat hi.toNat), Text.hexValue? (Char.ofNat lo.toNat) with
    | some h, some l => UInt8.ofNat (16 * h + l) :: percentDecode rest
    | _, _ => 0x25 :: percentDecode (hi :: lo :: rest)
  | b :: rest => b :: percentDecode rest

/-- Reads an id as it stands in a path. -/
def readId (segment : String) : Except String UInt32 :=
  match Text.Utf8.decode? (percentDecode (Text.Utf8.encode segment)) with
  | none => .error "Invalid URL: Invalid UTF-8 in `id`"
  | some text =>
    match Text.readNumber Text.bound32 text.toList with
    | .ok n => .ok (UInt32.ofNat n)
    | .error _ => .error s!"Invalid URL: Cannot parse `{text}` to a `u32`"

/-- The router that targets are written for. The wording of its refusals is its own affair. -/
def Router.standard : Router := ⟨Http.segments, Http.readId⟩

/-! ## Authorization -/

/-- Whether a header's value can be read as text. -/
def isText (value : Bytes) : Bool :=
  value.all (fun b => (0x20 ≤ b && b < 0x7F) || b == 0x09)

/-- The mark in front of a token, with the blank after it. -/
def scheme : Bytes := Text.Utf8.encode "Bearer "

/-- The token of a header's value, empty if it has none. -/
def tokenOf (value : Bytes) : Bytes :=
  if isText value && scheme.isPrefixOf value then value.drop scheme.length else []

/-- Whether a request carries the token. Only its first header counts. -/
def isAuthorized (token : String) (q : Request) : Bool :=
  let given := (q.authorization.head?.map tokenOf).getD []
  !given.isEmpty && given == Text.Utf8.encode token

/-! ## Answers -/

open Relay (Op)

/-- Answers a request for a resource that is open to everyone. -/
def answerOpen : Resource → Op Response
  | .health => return {}
  | .ready => do
    if ← .read Relay.hasCapacity then return {} else return .bare 503
  | .metrics => return .ok (.metrics (← .read (·.metrics.lines)))
  | _ => return .bare 404

/-- Closes what has an id, if the segment holds one and the request is authorized. -/
def answerClose (authorized : Bool) (id : Except String UInt32) (close : UInt32 → Op Bool)
    (message : UInt32 → String) : Op Response :=
  match id with
  | .error text => return .refusal 400 text
  | .ok id => do
    if !authorized then return .bare 401
    if ← close id then return .ok (.closed (message id)) else return .bare 404

/-- Answers a request for a resource of the administration. -/
def answerAdmin (router : Router) (authorized : Bool) : Resource → Op Response
  | .session id =>
    answerClose authorized (router.readId id) Relay.closeSession
      (fun id => s!"Session {id} closed")
  | .channel id =>
    answerClose authorized (router.readId id) Relay.closeChannel
      (fun id => s!"Channel {id} closed")
  | .sessions => do
    if !authorized then return .bare 401
    return .ok (.sessions (← .read Relay.sessionSummaries))
  | .channels => do
    if !authorized then return .bare 401
    return .ok (.channels (← .read Relay.channelSummaries))
  | .stats => do
    if !authorized then return .bare 401
    return .ok (.stats (← .read Relay.stats))
  | resource => answerOpen resource

/-- Answers a request. The token is the one that was set; an empty one is none. -/
def answer (token : Option String) (q : Request) (router : Router := .standard) : Op Response :=
  let token := token.filter (· != "")
  match Resource.ofSegments? token.isSome (router.segments q.path) with
  | none => return .bare 404
  | some resource =>
    if resource.allows q.method then do
      let answer ← answerAdmin router (token.any (fun token => isAuthorized token q)) resource
      return if q.method = "HEAD" then answer.headOnly else answer
    else return .bare 405

end PeerRelay.Http
