import PeerRelay.Text.Hex

/-!
# Internet addresses

IPv4 and IPv6 addresses, socket addresses, and the text of each. An IPv6 address is
written with its longest run of zero groups, if it is longer than one, shortened
to two colons, and an address that wraps an IPv4 address ends with that one's
text.
-/

namespace PeerRelay

/-- Four octets, the one written first coming first. -/
structure Ipv4 where
  a : UInt8
  b : UInt8
  c : UInt8
  d : UInt8
  deriving DecidableEq, Repr

namespace Ipv4

/-- The address that stands for no address. -/
def unspecified : Ipv4 := ⟨0, 0, 0, 0⟩

def loopback : Ipv4 := ⟨127, 0, 0, 1⟩

/-- The octets as written. -/
def octets (ip : Ipv4) : Bytes := [ip.a, ip.b, ip.c, ip.d]

/-- The address as a number travels on the wire: last octet first. -/
def wire (ip : Ipv4) : Bytes := [ip.d, ip.c, ip.b, ip.a]

def text (ip : Ipv4) : String :=
  s!"{ip.a.toNat}.{ip.b.toNat}.{ip.c.toNat}.{ip.d.toNat}"

end Ipv4

/-- Eight groups of sixteen bits. -/
structure Ipv6 where
  g0 : UInt16
  g1 : UInt16
  g2 : UInt16
  g3 : UInt16
  g4 : UInt16
  g5 : UInt16
  g6 : UInt16
  g7 : UInt16
  deriving DecidableEq, Repr

namespace Ipv6

def loopback : Ipv6 := ⟨0, 0, 0, 0, 0, 0, 0, 1⟩

def groups (ip : Ipv6) : List UInt16 :=
  [ip.g0, ip.g1, ip.g2, ip.g3, ip.g4, ip.g5, ip.g6, ip.g7]

/-- The address of eight groups; absent groups are zero. -/
def ofGroups (gs : List UInt16) : Ipv6 :=
  let g := fun i => gs.getD i 0
  ⟨g 0, g 1, g 2, g 3, g 4, g 5, g 6, g 7⟩

/-- The IPv6 form of an IPv4 address. -/
def ofIpv4 (ip : Ipv4) : Ipv6 :=
  ⟨0, 0, 0, 0, 0, 0xFFFF,
    UInt16.ofNat (256 * ip.a.toNat + ip.b.toNat), UInt16.ofNat (256 * ip.c.toNat + ip.d.toNat)⟩

/-- The IPv4 address that an IPv6 address wraps, if it wraps one. -/
def toIpv4? (ip : Ipv6) : Option Ipv4 :=
  if ip.groups.take 6 = [0, 0, 0, 0, 0, 0xFFFF] then
    some ⟨UInt8.ofNat (ip.g6.toNat / 256), UInt8.ofNat (ip.g6.toNat % 256),
      UInt8.ofNat (ip.g7.toNat / 256), UInt8.ofNat (ip.g7.toNat % 256)⟩
  else none

/-- How many zero groups the list begins with. -/
def zeroRun (gs : List UInt16) : Nat := (gs.takeWhile (· == 0)).length

/-- Start and length of the first of the longest runs of zero groups. -/
def longestZeroRun (gs : List UInt16) : Nat × Nat :=
  (List.range gs.length).foldl
    (fun best i =>
      let run := zeroRun (gs.drop i)
      if best.2 < run then (i, run) else best)
    (0, 0)

/-- A group without leading zeros. -/
def groupText (g : UInt16) : String :=
  String.ofList (Nat.toDigits 16 g.toNat)

def groupsText (gs : List UInt16) : String :=
  String.intercalate ":" (gs.map groupText)

def text (ip : Ipv6) : String :=
  match ip.toIpv4? with
  | some inner => "::ffff:" ++ inner.text
  | none =>
    let (start, run) := longestZeroRun ip.groups
    if 1 < run then
      groupsText (ip.groups.take start) ++ "::" ++ groupsText (ip.groups.drop (start + run))
    else groupsText ip.groups

end Ipv6

/-- An address of either family. -/
inductive Ip where
  | v4 (ip : Ipv4)
  | v6 (ip : Ipv6)
  deriving DecidableEq, Repr

namespace Ip

def text : Ip → String
  | v4 ip => ip.text
  | v6 ip => ip.text

/-- The address as a client is told it: an IPv4 address or the one that an IPv6
address wraps; any other IPv6 address cannot be told and reads as unspecified. -/
def wireIpv4 : Ip → Ipv4
  | v4 ip => ip
  | v6 ip => ip.toIpv4?.getD .unspecified

end Ip

/-- An address and a port; an IPv6 address may name the zone it belongs to. -/
structure SocketAddr where
  ip : Ip
  port : UInt16
  zone : UInt32 := 0
  deriving DecidableEq, Repr

/-- An IPv6 address stands in brackets, with its zone unless that is zero. -/
def SocketAddr.text (addr : SocketAddr) : String :=
  match addr.ip with
  | .v4 ip => s!"{ip.text}:{addr.port.toNat}"
  | .v6 ip =>
    if addr.zone = 0 then s!"[{ip.text}]:{addr.port.toNat}"
    else s!"[{ip.text}%{addr.zone.toNat}]:{addr.port.toNat}"

end PeerRelay
