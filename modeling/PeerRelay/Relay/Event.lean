import PeerRelay.Relay.Service
import PeerRelay.Relay.Traffic

/-!
# Events and runs

Everything that can happen to a relay from outside, one complete event after
another. `Relay.after` is the state that a list of events leads to.
-/

namespace PeerRelay.Relay

/-- What can happen to a relay. -/
inductive Event where
  /-- A connection arrives at a listener with a role. -/
  | connect (role : Role) (peer localAddr : SocketAddr)
  /-- A connection takes a place, but no session has begun on it yet. -/
  | reserve
  /-- A session begins on a connection that has taken a place before. -/
  | begin (role : Role) (peer localAddr : SocketAddr)
  /-- No session could begin on a connection that has taken a place before. -/
  | abandon
  /-- Bytes arrive on a session's connection. -/
  | bytes (session : SessionRef) (data : Bytes)
  /-- A session's connection ends. -/
  | disconnect (session : SessionRef)
  /-- A datagram arrives at an end of a channel. -/
  | datagram (channel : ChannelRef) (side : Side) (sender : SocketAddr) (data : Bytes)
  /-- An alarm is due. -/
  | due (duty : Duty)
  /-- A session, or a channel, is closed by its id from outside. -/
  | closeSession (id : SessionId)
  | closeChannel (id : ChannelId)
  | stopAll
  /-- Time passes, in nanoseconds. -/
  | pass (nanoseconds : Nat)
  /-- The directory applies what is queued. -/
  | sync

/-- Accepts a connection if there is a place for it; tells which session began. -/
def accept (role : Role) (peer localAddr : SocketAddr) (held : Bool) :
    Op (Option SessionRef) := do
  if ← reserveConnection then return some (← startSession role peer localAddr held)
  else return none

/-- What the relay does about an event. -/
def Event.op : Event → Op Unit
  | connect role peer localAddr => do let _ ← accept role peer localAddr false
  | reserve => do let _ ← reserveConnection
  | begin role peer localAddr => do let _ ← startSession role peer localAddr false
  | abandon => releaseConnection
  | bytes s data => receive s data
  | disconnect s => stopSession s
  | datagram c side sender data => Relay.datagram c side sender data
  | due duty => perform duty
  | closeSession id => do let _ ← Relay.closeSession id
  | closeChannel id => do let _ ← Relay.closeChannel id
  | stopAll => Relay.stopAll
  | pass nanoseconds => .modify fun r => { r with now := r.now + nanoseconds }
  | sync => .modify syncDirectory

/-- The relay after an event. -/
def step (r : Relay) (e : Event) : Relay := e.op.exec r

/-- The relay after events, one after another. -/
def after (r : Relay) (events : List Event) : Relay := events.foldl step r

@[simp] theorem after_nil (r : Relay) : r.after [] = r := rfl

@[simp] theorem after_cons (r : Relay) (e : Event) (es : List Event) :
    r.after (e :: es) = (r.step e).after es := rfl

theorem after_append (r : Relay) (es fs : List Event) :
    r.after (es ++ fs) = (r.after es).after fs := by
  simp [after]

theorem after_snoc (r : Relay) (es : List Event) (e : Event) :
    r.after (es ++ [e]) = (r.after es).step e := by
  rw [after_append]
  rfl

/-! ## Alarms -/

/-- When an alarm is due again after an instant, if it comes back. -/
def rearm (a : Alarm) (timer : Nat) : List Alarm :=
  match a.period with
  | none => []
  | some 0 => []
  | some p => [{ a with due := a.due + ((timer - a.due) / p + 1) * p }]

/-- The alarms that are due, the earliest first. -/
def dueAlarms (r : Relay) : List Alarm :=
  let due := r.alarms.filter (fun a => decide (a.due ≤ r.timer))
  due.mergeSort (fun a b => decide (a.due ≤ b.due))

/-- Looks after an alarm that is due, unless it was switched off. Of the ticks
that were missed only one counts, because nothing happens between them. -/
def ring (a : Alarm) (r : Relay) : Relay :=
  if a ∈ r.alarms then
    let others := r.alarms.filter (fun b => decide (b ≠ a))
    { r with alarms := others ++ rearm a r.timer }.step (.due a.duty)
  else r

/-- Moves the clock of the alarms and looks after those that become due. -/
def passTimer (milliseconds : Nat) (r : Relay) : Relay :=
  let r := { r with timer := r.timer + milliseconds }
  r.dueAlarms.foldl (fun r a => r.ring a) r

end PeerRelay.Relay
