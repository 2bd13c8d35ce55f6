import PeerRelay.Wire.Bytes

/-!
# How channels are run

The two ends of a channel, the rule that lets a peer in, and the limits and
intervals that a channel lives by. Times are in milliseconds.
-/

namespace PeerRelay

/-- An end of a channel: one faces the session that asked for the channel, the
other the session that was asked for. -/
inductive Side where
  | src
  | dst
  deriving DecidableEq, Repr

namespace Side

def other : Side → Side
  | src => dst
  | dst => src

def name : Side → String
  | src => "src"
  | dst => "dst"

/-- The side with the very name. -/
def ofName? (text : String) : Option Side := [src, dst].find? (fun side => side.name == text)

@[simp] theorem other_other (side : Side) : side.other.other = side := by
  cases side <;> rfl

end Side

namespace Channel

/-- Decides which datagrams let their sender in at an end. -/
abbrev Policy := Side → Bytes → Bool

/-- Lets in whoever sends a datagram that does not begin with a zero byte. -/
def nonzeroFirst : Policy := fun _ datagram => datagram.head?.any (· != 0)

/-- The longest datagram that only keeps an end alive and is not relayed. -/
def keepaliveLength : Nat := 2

/-- The limits and intervals of a channel. -/
structure Config where
  /-- The bytes of a datagram that an end can take; the rest is cut off. -/
  mtu : Nat := 2048
  /-- How long an end may be silent before the channel is closed. -/
  expiry : Option Nat := some 120000
  /-- How often traffic is reported. -/
  reportEvery : Option Nat := some 60000
  /-- How often the ends are checked for silence. -/
  pollEvery : Nat := 10000
  policy : Policy := nonzeroFirst

end Channel

end PeerRelay
