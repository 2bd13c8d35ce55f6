import PeerRelay.Bench

/-!
# What is seen at the bench

Addresses are shown with the name of whoever is there instead of the port.
After a step everyone who reads has read everything: the frames and datagrams
that a client was sent since the last look, and the end of its stream.
-/

namespace PeerRelay.Bench

/-- The name of an end of a channel. -/
def endName (id : ChannelId) (side : Side) : String := s!"{id}.{side.name}"

/-- The end of a channel with a name. -/
def endOfName? (text : String) : Option (ChannelId × Side) :=
  match Text.splitOn '.' text.toList with
  | [id, side] =>
    match Text.readNumber Text.bound32 id, Side.ofName? (String.ofList side) with
    | .ok n, some side => some (UInt32.ofNat n, side)
    | _, _ => none
  | _ => none

/-- Who is at an address, if it is known. -/
def nameOf? (b : Bench) (addr : SocketAddr) : Option String :=
  if addr.port = 0 then some "0"
  else
    (b.tcp.find? (·.addr == addr)).map (fun c => "c:" ++ c.name) <|>
    (b.udp.find? (·.addr == addr)).map (fun u => "u:" ++ u.name) <|>
    (b.known.findSome? (fun (id, src, dst) =>
      if src = addr then some (endName id .src)
      else if dst = addr then some (endName id .dst) else none))

/-- An address with the name of whoever is there. -/
def place (b : Bench) (addr : SocketAddr) : String :=
  addr.ip.text ++ "|" ++ (b.nameOf? addr).getD "?"

/-- Sessions by id, and then by where they come from. -/
def sortSessions (b : Bench) (list : List Session.Summary) : List Session.Summary :=
  list.mergeSort (fun x y => decide (x.id < y.id) ||
    (x.id == y.id && decide (b.place x.peer ≤ b.place y.peer)))

/-- The channels that are there: listed ones and those that the bench made. -/
def channelsPresent (b : Bench) : List ChannelRef :=
  b.relay.listed.values ++ b.made.filter (fun c => decide (c ∉ b.relay.listed.values))

/-- Notes the addresses of all channels that are there. -/
def noteChannels (b : Bench) : Bench :=
  let seen := b.channelsPresent.map (fun c =>
    let channel := b.relay.channel c
    (channel.id, channel.src.relay, channel.dst.relay))
  { b with known := seen ++ b.known.filter (fun k => decide (k ∉ seen)) }

/-- The relay port that a response announces, with its channel. -/
def announced? : Response → Option (ChannelId × UInt16)
  | .proxy _ channel _ port | .access _ channel _ port _ | .stopProxy channel _ port =>
    some (channel, port)
  | _ => none

/-- The end of a channel that an announced port belongs to. -/
def portName (b : Bench) (id : ChannelId) (port : UInt16) : String :=
  if port = 0 then "0"
  else
    match b.known.find? (fun k => k.1 == id) with
    | none => "?"
    | some (_, src, dst) =>
      if src.port = port then "src" else if dst.port = port then "dst" else "?"

/-- A frame as a client sees it. -/
structure SeenFrame where
  frame : Wire.Frame
  /-- The end of the channel that the response announces a port of. -/
  port : Option String

/-- The response with its relay port blanked, as ports differ between runs. -/
def blankPort : Response → Response
  | .proxy result channel addr _ => .proxy result channel addr 0
  | .access source channel addr _ privateAddr => .access source channel addr 0 privateAddr
  | .stopProxy channel addr _ => .stopProxy channel addr 0
  | r => r

def seenFrame (b : Bench) (p : Push) : SeenFrame where
  frame := (blankPort p.response).frame p.header
  port := (announced? p.response).map (fun (id, port) => b.portName id port)

/-- The channel that a push says is over. -/
def stopped? (p : Push) : Option ChannelId :=
  match p.response with
  | .stopProxy channel _ _ => some channel
  | _ => none

/-- Puts a push in its place among the stop notices that come right after it. -/
def insertStop (p : Push) : List Push → List Push
  | [] => [p]
  | q :: rest =>
    match stopped? p, stopped? q with
    | some a, some b => if b < a then q :: insertStop p rest else p :: q :: rest
    | _, _ => p :: q :: rest

/-- The pushes with every run of stop notices sorted by channel. -/
def sortStops (pushes : List Push) : List Push := pushes.foldr insertStop []

/-- What was seen of a step. -/
structure Observation where
  frames : List (String × List SeenFrame) := []
  /-- The datagrams for each client, with the end that sent them. -/
  datagrams : List (String × List (String × Bytes)) := []
  closed : List String := []

/-- The pushes that a client has not read yet. -/
def unseen (b : Bench) (client : TcpClient) : List Push :=
  match client.session with
  | none => []
  | some s => if client.reads then (b.relay.session s).outbox.drop client.seen else []

/-- Whether the end of a client's stream is there to be seen for the first time. -/
def isClosing (b : Bench) (client : TcpClient) : Bool :=
  client.reads && !client.sawEnd &&
    match client.session with
    | none => true
    | some s => !(b.relay.session s).running

/-- Lets a client read everything. -/
def readAll (b : Bench) (client : TcpClient) : TcpClient :=
  { client with
    seen := client.seen + (b.unseen client).length
    sawEnd := client.sawEnd || b.isClosing client }

/-- The datagrams that a UDP client was sent. -/
def datagramsFor (b : Bench) (sent : List Emission) (client : UdpClient) :
    List (String × Bytes) :=
  (sent.filter (fun e => decide (e.target = client.addr))).map (fun e =>
    (endName (b.relay.channel e.channel).id e.side, e.data))

/-- Looks at everything that was sent since the last look. Stop notices can be left
out. -/
def observe (b : Bench) (withStops : Bool) : Observation × Bench :=
  let b := b.noteChannels
  let frames := b.tcp.reverse.map (fun client =>
    let pushes := b.unseen client
    let pushes := if withStops then pushes else pushes.filter (fun p => (stopped? p).isNone)
    (client.name, (sortStops pushes).map b.seenFrame))
  let sent := b.relay.sent.drop b.delivered
  let datagrams := b.udp.map (fun client => (client.name, b.datagramsFor sent client))
  let closed := (b.tcp.reverse.filter b.isClosing).map (·.name)
  ({ frames := frames.filter (fun f => !f.2.isEmpty)
     datagrams := datagrams.filter (fun d => !d.2.isEmpty)
     closed },
    { b with tcp := b.tcp.map b.readAll, delivered := b.relay.sent.length })

/-- The metrics that do not hang on how long things took. -/
def steadyMetrics (lines : List String) : List String :=
  lines.filter (fun line =>
    !line.startsWith "#" && !line.startsWith "natproxy_channel_duration_seconds_sum")

end PeerRelay.Bench
