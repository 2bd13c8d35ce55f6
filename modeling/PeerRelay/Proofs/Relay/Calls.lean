import PeerRelay.Proofs.Relay.Answers

/-!
# Calls from several sides

A relay is not only called by one event after another: sessions live on different threads, and
each may ask for channels, stop them, or end, while others are at it. A call is one such
request. Whatever the calls are, channels are created and stopped by the same three
operations, and everything else leaves the channels alone.
-/

namespace PeerRelay.Relay

open Steps
open Wire (Frame)

/-- What may be asked of a relay while it is busy with something else. -/
inductive Call where
  /-- Everything that is done about an event. -/
  | event (e : Event)
  /-- A channel from a session to the one with an id, asked for on behalf of the session. -/
  | create (src : SessionRef) (id : SessionId)
  /-- The end of a channel, asked for by someone who holds it. -/
  | stop (c : ChannelRef)

/-- What a call ends with. Only the creation of a channel has an answer. -/
abbrev Answer := Option (Except Refusal (ChannelRef × SessionRef))

/-- What a call does. Only a session that has begun can ask for a channel. -/
def Call.op : Call → Op Answer
  | event e => do
    e.op
    return none
  | create src id => do
    if ← .read fun r => decide (src < r.sessions.length) then
      return some (← createChannel src id)
    else return none
  | stop c => do
    stopChannel c
    return none

theorem op_of_getElem? {calls : List Call} {i : Nat} {op : Op Answer}
    (h : (calls.map Call.op)[i]? = some op) : i < calls.length ∧ ∃ c : Call, op = c.op := by
  obtain ⟨c, hc, rfl⟩ := Option.map_eq_some_iff.mp (List.getElem?_map .. ▸ h)
  exact ⟨(List.getElem?_eq_some_iff.mp hc).1, c, rfl⟩

/-- A call is an event, or it is one of two operations on channels. -/
theorem Composed.call {T : (α : Type) → Op α → Prop} (h : Composed T) {call : Call}
    (hevent : ∀ e, call = .event e → T Unit e.op)
    (hcreate : ∀ s id, T _ (Relay.createChannel s id))
    (hstop : ∀ c, T Unit (Relay.stopChannel c)) : T _ call.op := by
  cases call with
  | event e => exact h.bind (hevent e rfl) fun _ => h.pure none
  | create src id =>
      refine h.read fun begun => ?_
      split
      · exact h.bind (hcreate src id) fun created => h.pure (some created)
      · exact h.pure none
  | stop c => exact h.bind (hstop c) fun _ => h.pure none

/-- A property of operations that depends on what they do to the channels only, and that
operations one after another have if each of them has it. -/
structure Compositional (T : (α : Type) → Op α → Prop) : Prop where
  quiet : ∀ {α : Type} {p : Op α}, p.Each SameChannels → T α p
  bind : ∀ {α β : Type} {p : Op α} {f : α → Op β}, T α p → (∀ a, T β (f a)) → T β (p >>= f)

namespace Compositional

variable {T : (α : Type) → Op α → Prop} (h : Compositional T)

include h

theorem composed : Composed T where
  pure a := h.quiet (each_pure a)
  look g := h.quiet (each_read g)
  bind := h.bind

theorem serveProxy (hcreate : ∀ s id, T _ (createChannel s id)) (s : SessionRef)
    (header : Wire.Header) (destination : SessionId) :
    T Unit (serveProxy s header destination) :=
  h.composed.serveProxy (fun _ _ _ => h.quiet (push_sameChannels ..)) hcreate
    (fun c => h.quiet (startChannel_sameChannels c)) s header destination

/-- Of the requests of a client only the one for a channel does something to the channels. -/
theorem receive (hproxy : ∀ s header destination, T Unit (Relay.serveProxy s header destination))
    (s : SessionRef) (data : Bytes) : T Unit (receive s data) := by
  have hunread (unread : Bytes) :
      (Steps.modify fun r : Relay => r.modifySession s ({ · with unread })).Each SameChannels :=
    each_modify fun r => .modifySession r s fun _ side => by cases side <;> rfl
  have hframe : ∀ frame, T Unit (serveFrame s frame) :=
    h.composed.serveFrame (fun _ _ _ _ => h.quiet (serveLogin_sameChannels ..)) hproxy
      (fun _ _ => h.quiet (servePeers_sameChannels ..))
      (fun _ _ => h.quiet (refuseMalformed_sameChannels ..)) s
  exact h.composed.receive (fun unread => h.quiet (hunread unread)) hframe
    (h.quiet (each_modify fun r => sameChannels_count _ r)) data

/-- What the three operations on channels have, every event has. -/
theorem event (hproxy : ∀ s header destination, T Unit (Relay.serveProxy s header destination))
    (hstop : ∀ c, T Unit (stopChannel c))
    (hsession : ∀ s, T Unit (stopSession s)) (e : Event) : T Unit e.op :=
  h.composed.event hstop hsession (fun c => h.quiet (report_sameChannels c))
    (fun _ => h.quiet (each_modify fun _ => .of_eq rfl))
    (h.quiet (each_modify fun _ => .of_eq rfl))
    (h.composed.arrival (h.quiet reserveConnection_sameChannels)
      (fun _ _ _ _ => h.quiet (startSession_sameChannels ..))
      (h.quiet releaseConnection_sameChannels) (fun s data _ => h.receive hproxy s data)
      fun _ _ _ _ _ => h.quiet (datagram_sameChannels ..))

/-- What the three operations on channels have, every call has. -/
theorem call (hcreate : ∀ s id, T _ (createChannel s id)) (hstop : ∀ c, T Unit (stopChannel c))
    (hsession : ∀ s, T Unit (stopSession s)) (c : Call) : T _ c.op :=
  h.composed.call (fun e _ => h.event (h.serveProxy hcreate) hstop hsession e) hcreate hstop

end Compositional

end PeerRelay.Relay
