import PeerRelay.Http

/-!
# A test bench

A relay among named clients on one host. Clients connect from loopback
addresses of the relay's own family, each connection and each UDP socket from a
port of its own. The bench keeps what every client has been sent so far, and it
can hold on to sessions and channels as a part of the relay's own program
would, and call for them directly.
-/

namespace PeerRelay

namespace Bench

/-- The kind of addresses that the relay listens on. -/
inductive Family where
  | v4
  | v6
  /-- IPv4 addresses in their IPv6 form. -/
  | mapped
  deriving DecidableEq, Repr

/-- The family with a name, by default the first. -/
def Family.ofName (text : String) : Family :=
  if text = "v6" then v6 else if text = "mapped" then mapped else v4

/-- The loopback address of the family. -/
def Family.loopback : Family → Ip
  | v4 => .v4 .loopback
  | v6 => .v6 .loopback
  | mapped => .v6 (.ofIpv4 .loopback)

/-- How the relay sees an address; by default it is the loopback address. -/
def Family.ip (family : Family) : Option Ip → Ip
  | none => family.loopback
  | some (.v4 ip) => if family = mapped then .v6 (.ofIpv4 ip) else .v4 ip
  | some ip => ip

/-- The rules by which the bench can let peers in. -/
inductive Admission where
  | nonzero
  | any
  | never
  /-- Whoever turns up at the destination's end. -/
  | dstOnly
  /-- Datagrams of at least four bytes. -/
  | long
  deriving DecidableEq, Repr

/-- The rule with a name, by default the first. -/
def Admission.ofName (text : String) : Admission :=
  if text = "any" then any
  else if text = "never" then never
  else if text = "dst_only" then dstOnly
  else if text = "long" then long
  else nonzero

def Admission.policy : Admission → Channel.Policy
  | nonzero => Channel.nonzeroFirst
  | any => fun _ _ => true
  | never => fun _ _ => false
  | dstOnly => fun side _ => side == .dst
  | long => fun _ datagram => 4 ≤ datagram.length

/-- A client with a control connection. -/
structure TcpClient where
  name : String
  addr : SocketAddr
  /-- The session, unless the connection was turned away. -/
  session : Option SessionRef
  /-- Whether the bench has a handle to the session. -/
  hasHandle : Bool
  /-- Whether the client is still there to read. -/
  reads : Bool := true
  /-- Whether the client may still send. -/
  sends : Bool := true
  /-- How much of the session's outbox the client has read. -/
  seen : Nat := 0
  /-- Whether the client has seen the end of the stream. -/
  sawEnd : Bool := false

/-- A client with a UDP socket. -/
structure UdpClient where
  name : String
  addr : SocketAddr

end Bench

/-- A relay and everyone around it. -/
structure Bench where
  relay : Relay := {}
  family : Bench.Family := .v4
  adminToken : Option String := none
  /-- The control clients, newest first. -/
  tcp : List Bench.TcpClient := []
  udp : List Bench.UdpClient := []
  /-- The channels that the bench made itself, newest first. -/
  made : List ChannelRef := []
  /-- The addresses of all channels that were ever seen, newest first. -/
  known : List (ChannelId × SocketAddr × SocketAddr) := []
  /-- How many of the relay's datagrams were delivered. -/
  delivered : Nat := 0

namespace Bench

/-- What can be done at the bench. -/
inductive Step where
  | connect (client : String) (role : Role) (ip : Option Ip) (viaListener : Bool)
  | send (client : String) (data : Bytes)
  | close (client : String)
  | halfClose (client : String)
  | session (client : String)
  | stopSession (client : String)
  | dropHandle (client : String)
  | stopAll
  | closeSession (id : SessionId)
  | closeChannel (id : ChannelId)
  | tryRegister
  | release
  | forgetChannel (id : ChannelId)
  | logIn (client : String) (guid : Guid)
  | dismiss (client : String)
  | createChannel (client : String) (destination : SessionId)
  | newChannel (id : ChannelId) (src dst : String)
  | initChannel (id : ChannelId)
  | startChannel (id : ChannelId)
  | stopChannel (id : ChannelId)
  | channelStats (id : ChannelId)
  | udp (client : String) (ip : Option Ip) (channel : ChannelId) (side : Side) (data : Bytes)
  | advance (timer activity : Nat)
  | http (request : Http.Request)

/-- Whether a step ends all sessions at once. -/
def Step.isStopAll : Step → Bool
  | stopAll => true
  | _ => false

/-- What came of a step. -/
inductive Result where
  | nothing
  | accepted (session : Option SessionRef)
  | sent (bytes : Nat)
  | closed
  | noSession
  | noChannel
  | session (session : SessionRef) (details : Session)
  | found (found : Bool)
  | ok (ok : Bool)
  | admitted (id : SessionId)
  | login (loggedIn : Bool) (id : SessionId)
  | created (id : ChannelId) (destination : SessionId)
  | refused (refusal : Refusal)
  | stats (report : Option Traffic.Report)
  | http (response : Http.Response)

/-- The newest client of a name. -/
def client? (b : Bench) (name : String) : Option TcpClient :=
  b.tcp.find? (·.name == name)

/-- Changes the newest client of a name. -/
def modifyClient (b : Bench) (name : String) (f : TcpClient → TcpClient) : Bench :=
  { b with tcp := go b.tcp }
where
  go : List TcpClient → List TcpClient
    | [] => []
    | client :: rest => if client.name == name then f client :: rest else client :: go rest

/-- The session that the bench has a handle to. -/
def handle? (b : Bench) (name : String) : Option SessionRef := do
  let client ← b.client? name
  if client.hasHandle then client.session else none

/-- The channel with an id: one that the bench made, or one that is listed. -/
def channel? (b : Bench) (id : ChannelId) : Option ChannelRef :=
  b.made.find? (fun c => (b.relay.channel c).id == id) <|> b.relay.listed.get? id

/-- Runs an operation on the relay. -/
def run {α : Type} (b : Bench) (op : Relay.Op α) : α × Bench :=
  let (a, relay) := op.run b.relay
  (a, { b with relay })

/-- Runs an operation on the session that the bench has a handle to. -/
def withHandle (b : Bench) (name : String) (f : SessionRef → Bench → Result × Bench) :
    Result × Bench :=
  match b.handle? name with
  | none => (.noSession, b)
  | some s => f s b

/-- Runs an operation on the channel with an id. -/
def withChannel (b : Bench) (id : ChannelId) (f : ChannelRef → Bench → Result × Bench) :
    Result × Bench :=
  match b.channel? id with
  | none => (.noChannel, b)
  | some c => f c b

/-- The port of the connection that comes after so many others. -/
def tcpPort (others : Nat) : UInt16 := UInt16.ofNat (1024 + others)

/-- The port of the UDP socket that comes after so many others. -/
def udpPort (others : Nat) : UInt16 := UInt16.ofNat (16384 + others)

/-- The UDP socket of a client; it is made at its first use. -/
def udpSocket (b : Bench) (name : String) (ip : Option Ip) : SocketAddr × Bench :=
  match b.udp.find? (·.name == name) with
  | some client => (client.addr, b)
  | none =>
    let addr : SocketAddr := ⟨b.family.ip ip, udpPort b.udp.length, 0⟩
    (addr, { b with udp := b.udp ++ [⟨name, addr⟩] })

/-- Ends the session of a client. -/
def disconnect (b : Bench) (client : TcpClient) : Bench :=
  match client.session with
  | none => b
  | some s => (b.run (Relay.stopSession s)).2

def connect (b : Bench) (name : String) (role : Role) (ip : Option Ip) (viaListener : Bool) :
    Result × Bench :=
  let addr : SocketAddr := ⟨b.family.ip ip, tcpPort b.tcp.length, 0⟩
  let localAddr : SocketAddr := ⟨b.family.loopback, 10001, 0⟩
  let (session, b) := b.run (Relay.accept role addr localAddr (!viaListener))
  (if viaListener then .nothing else .accepted session,
    { b with tcp := { name, addr, session, hasHandle := !viaListener } :: b.tcp })

/-- Does a step, without looking yet at what the clients are sent. -/
def perform (b : Bench) : Step → Result × Bench
  | .connect name role ip viaListener => b.connect name role ip viaListener
  | .send name data =>
    match b.client? name with
    | none => (.closed, b)
    | some client =>
      if client.sawEnd || !client.sends then (.closed, b)
      else
        match client.session with
        | none => (.closed, b)
        | some s => (.sent data.length, (b.run (Relay.receive s data)).2)
  | .close name =>
    match b.client? name with
    | none => (.closed, b)
    | some client =>
      let deaf := b.modifyClient name (fun c => { c with reads := false, sends := false })
      (.nothing, deaf.disconnect client)
  | .halfClose name =>
    match b.client? name with
    | none => (.closed, b)
    | some client =>
      (.nothing, (b.modifyClient name (fun c => { c with sends := false })).disconnect client)
  | .session name => b.withHandle name fun s b => (.session s (b.relay.session s), b)
  | .stopSession name => b.withHandle name fun s b => (.nothing, (b.run (Relay.stopSession s)).2)
  | .dropHandle name => b.withHandle name fun s b =>
    (.nothing, { b.modifyClient name (fun c => { c with hasHandle := false }) with
      relay := b.relay.modifySession s (fun session => { session with held := false }) })
  | .stopAll => (.nothing, (b.run Relay.stopAll).2)
  | .closeSession id =>
    let (found, b) := b.run (Relay.closeSession id)
    (.found found, b)
  | .closeChannel id =>
    let (found, b) := b.run (Relay.closeChannel id)
    (.found found, b)
  | .tryRegister =>
    let (ok, b) := b.run Relay.reserveConnection
    (.ok ok, b)
  | .release => (.nothing, (b.run Relay.releaseConnection).2)
  | .forgetChannel id => (.nothing, (b.run (Relay.forgetChannel id)).2)
  | .logIn name guid => b.withHandle name fun s b =>
    match b.run (Relay.logIn s guid) with
    | (.ok id, b) => (.admitted id, b)
    | (.error refusal, b) => (.refused refusal, b)
  | .dismiss name => b.withHandle name fun s b =>
    let (_, b) := b.run (Relay.dismiss s)
    (.login (b.relay.session s).loggedIn (b.relay.session s).id, b)
  | .createChannel name destination => b.withHandle name fun s b =>
    match b.run (Relay.createChannel s destination) with
    | (.ok (c, dst), b) =>
      (.created (b.relay.channel c).id (b.relay.session dst).id, { b with made := c :: b.made })
    | (.error refusal, b) => (.refused refusal, b)
  | .newChannel id src dst => b.withHandle src fun s b => b.withHandle dst fun t b =>
    (.nothing, { b with
      relay := b.relay.addChannel id s t
      made := b.relay.channels.length :: b.made })
  | .initChannel id => b.withChannel id fun c b =>
    match b.run (Relay.initChannel c) with
    | (.ok (), b) => (.ok true, b)
    | (.error refusal, b) => (.refused refusal, b)
  | .startChannel id => b.withChannel id fun c b =>
    (.nothing, (b.run (do
      Relay.startChannel c
      Relay.takeWaiting c .src
      Relay.takeWaiting c .dst)).2)
  | .stopChannel id => b.withChannel id fun c b => (.nothing, (b.run (Relay.stopChannel c)).2)
  | .channelStats id => b.withChannel id fun c b => (.stats (b.relay.channel c).lastReport, b)
  | .udp name ip id side data => b.withChannel id fun c b =>
    let (addr, b) := b.udpSocket name ip
    (.sent data.length, (b.run (Relay.datagram c side addr data)).2)
  | .advance timer activity =>
    (.nothing, { b with
      relay := (b.relay.step (.pass (1000000 * activity))).passTimer timer })
  | .http request =>
    let (response, b) := b.run (Http.answer b.adminToken request)
    (.http response, b)

/-- A step takes a millisecond, and the directory is done when it ends. -/
def step (b : Bench) (s : Step) : Result × Bench :=
  let (result, b) := { b with relay := b.relay.step (.pass 1000000) }.perform s
  (result, { b with relay := b.relay.syncDirectory })

end Bench

end PeerRelay
