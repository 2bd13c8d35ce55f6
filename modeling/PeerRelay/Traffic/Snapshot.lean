import PeerRelay.Decimal.Fixed

/-!
# Traffic counters

A channel counts the bytes and datagrams it has relayed in each direction:
upload runs from the requester to the destination. Two snapshots of the
counters give the growth between them and, with the time that passed, a rate.
-/

namespace PeerRelay

/-- The counters of one channel at one instant. -/
structure Traffic where
  upBytes : UInt64 := 0
  upPackets : UInt64 := 0
  downBytes : UInt64 := 0
  downPackets : UInt64 := 0
  deriving DecidableEq, Repr

/-- Bytes and datagrams for each second, in each direction. -/
structure Throughput where
  upBytes : Float
  upPackets : Float
  downBytes : Float
  downPackets : Float

namespace Traffic

/-- The datagrams of both directions. -/
def packets (t : Traffic) : UInt64 := t.upPackets + t.downPackets

/-- How far a counter is ahead of another, zero when it is behind. -/
def growth (now before : UInt64) : UInt64 := if before ≤ now then now - before else 0

/-- The growth of every counter since an earlier snapshot. -/
def since (now before : Traffic) : Traffic where
  upBytes := growth now.upBytes before.upBytes
  upPackets := growth now.upPackets before.upPackets
  downBytes := growth now.downBytes before.downBytes
  downPackets := growth now.downPackets before.downPackets

/-- A time in nanoseconds as seconds: the whole ones and the fraction are
converted apart. -/
def seconds (nanoseconds : Nat) : Float :=
  (UInt64.ofNat (nanoseconds / 1000000000)).toFloat +
    (UInt64.ofNat (nanoseconds % 1000000000)).toFloat / 1e9

/-- The shortest time, in seconds, that a rate is taken over: the gap between
one and the next number. -/
def leastSeconds : Float := Float.ofBits 0x3CB0000000000000

/-- The rate at which counters grew by so much over the nanoseconds. -/
def perSecond (grown : Traffic) (nanoseconds : Nat) : Throughput :=
  let exact := seconds nanoseconds
  let time := if exact < leastSeconds then leastSeconds else exact
  { upBytes := grown.upBytes.toFloat / time
    upPackets := grown.upPackets.toFloat / time
    downBytes := grown.downBytes.toFloat / time
    downPackets := grown.downPackets.toFloat / time }

/-- A size in the largest of the units that it reaches. -/
def sizeText (bytes : Float) : String :=
  go bytes ["B", "KB", "MB", "GB", "TB"]
where
  go (value : Float) : List String → String
    | [] => ""
    | [unit] => Decimal.fixed 2 value ++ unit
    | unit :: larger =>
      if value ≥ 1024 then go (value / 1024) larger else Decimal.fixed 2 value ++ unit

/-- The counters as logs show them. -/
def text (t : Traffic) : String :=
  s!"up {sizeText t.upBytes.toFloat} / {t.upPackets} pkts, " ++
    s!"down {sizeText t.downBytes.toFloat} / {t.downPackets} pkts"

end Traffic

/-- The rate as logs show it. -/
def Throughput.text (t : Throughput) : String :=
  s!"up {Traffic.sizeText t.upBytes}/s {Decimal.fixed 2 t.upPackets} pkt/s, " ++
    s!"down {Traffic.sizeText t.downBytes}/s {Decimal.fixed 2 t.downPackets} pkt/s"

end PeerRelay
