import PeerRelay.Bench

/-!
# The host of the bench

This is about the machine that the bench stands on and not about the relay. Before
anything happens at the bench, its relay must be able to listen and its clients to
connect. A host with a loopback network lets both happen. A host that is cut off from
every network refuses the connections, and has no IPv6 address to listen on.
-/

namespace PeerRelay.Bench

/-- What the host offers: a loopback network, or no network at all. -/
inductive Host where
  | loopback
  | isolated
  deriving DecidableEq, Repr

/-- What the host does not let happen. -/
inductive HostFault where
  /-- The relay cannot listen. -/
  | listen
  /-- A client cannot connect. -/
  | connect
  /-- A client cannot connect from the address it asks for. -/
  | connectFrom
  deriving DecidableEq, Repr

/-- What the bench reports: the words of its own steps, with those of the operating system on a
host without a network. -/
def HostFault.message : HostFault → String
  | listen => "listener: Os \x7b code: 99, kind: AddrNotAvailable, " ++
      "message: \"Cannot assign requested address\" \x7d"
  | connect => "connect: Os \x7b code: 101, kind: NetworkUnreachable, " ++
      "message: \"Network is unreachable\" \x7d"
  | connectFrom => "connect_from"

namespace Host

/-- Listens on an address of the family. -/
def listen (host : Host) (family : Family) : Except HostFault Unit :=
  if host = isolated ∧ family = .v6 then .error .listen else .ok ()

/-- Connects, from an address when one is asked for. -/
def connect (host : Host) (ip : Option Ip) : Except HostFault Unit :=
  match host with
  | loopback => .ok ()
  | isolated => .error (if ip.isSome then .connectFrom else .connect)

/-- Lets a step happen. -/
def permit (host : Host) : Step → Except HostFault Unit
  | .connect _ _ ip _ => host.connect ip
  | _ => .ok ()

end Host

end PeerRelay.Bench
