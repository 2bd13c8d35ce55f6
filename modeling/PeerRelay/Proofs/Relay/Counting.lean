import Mathlib.Data.List.GetD
import PeerRelay.Proofs.Relay.Frame

/-!
# What is counted where

Few operations count anything: most of what a relay does changes neither its metrics nor
what they are about, which is who is connected, which channels are open, and what the
channels have relayed. Whatever holds of those operations and of the few that count holds of
everything that happens to a relay.
-/

namespace PeerRelay

open Steps
open Wire (Frame)

/-- What is counted of a session: whether it runs, and what of its stream is still to be cut
into frames. -/
def Session.account (s : Session) : Bool × Bytes := (s.running, s.unread)

@[simp] theorem Session.account_withChannels (s : Session) (side : Side)
    (entries : Registry ChannelId ChannelRef) :
    (s.withChannels side entries).account = s.account := by
  cases side <;> rfl

/-- What is counted of a channel: what it has relayed, and whether it is over. -/
def Channel.account (c : Channel) : Traffic × Bool := (c.traffic, c.stopped)

namespace Channel

@[simp] theorem account_start (c : Channel) : c.start.account = c.account := by
  unfold start
  split <;> rfl

end Channel

namespace Relay

theorem map_modify_of_eq {α β : Type} {xs : List α} {n : Nat} {f : α → α} {g : α → β}
    (default : α) (h : g (f (xs.getD n default)) = g (xs.getD n default)) :
    (xs.modify n f).map g = xs.map g := by
  apply List.ext_getElem?
  intro m
  rw [List.getElem?_map, List.getElem?_map, List.getElem?_modify]
  cases hx : xs[m]? with
  | none => rfl
  | some x =>
      by_cases hnm : n = m
      · subst hnm
        rw [List.getD_eq_getElem?_getD, hx, Option.getD_some] at h
        simp [h]
      · simp [hnm]

/-! ## Steps that count nothing -/

/-- What a relay counts and what it counts of, and nothing else. -/
def countedPart (r : Relay) : Relay where
  config := r.config
  sessions := r.sessions
  channels := r.channels
  live := r.live
  metrics := r.metrics
  connections := r.connections

/-- The metrics, who is connected, and what is counted of sessions and channels are what they
were. -/
structure Uncounted (r r' : Relay) : Prop where
  config : r'.config = r.config
  metrics : r'.metrics = r.metrics
  live : r'.live = r.live
  connections : r'.connections = r.connections
  sessions : r'.sessions.map Session.account = r.sessions.map Session.account
  channels : r'.channels.map Channel.account = r.channels.map Channel.account

namespace Uncounted

variable {r r' r'' : Relay}

theorem of_eq (h : r'.countedPart = r.countedPart) : Uncounted r r' := by
  have hsame {α : Type} (g : Relay → α) : g r'.countedPart = g r.countedPart := congrArg g h
  exact ⟨hsame Relay.config, hsame Relay.metrics, hsame Relay.live, hsame Relay.connections,
    hsame (·.sessions.map Session.account), hsame (·.channels.map Channel.account)⟩

theorem refl (r : Relay) : Uncounted r r := of_eq rfl

theorem trans (h : Uncounted r r') (h' : Uncounted r' r'') : Uncounted r r'' where
  config := h'.config.trans h.config
  metrics := h'.metrics.trans h.metrics
  live := h'.live.trans h.live
  connections := h'.connections.trans h.connections
  sessions := h'.sessions.trans h.sessions
  channels := h'.channels.trans h.channels

instance : Std.Refl Uncounted := ⟨refl⟩

instance : Trans Uncounted Uncounted Uncounted := ⟨trans⟩

theorem modifySession (r : Relay) (s : SessionRef) {f : Session → Session}
    (h : ∀ x, (f x).account = x.account) : Uncounted r (r.modifySession s f) where
  config := rfl
  metrics := rfl
  live := rfl
  connections := rfl
  sessions := map_modify_of_eq .vacant (h _)
  channels := rfl

theorem modifyChannel (r : Relay) (c : ChannelRef) {f : Channel → Channel}
    (h : (f (r.channel c)).account = (r.channel c).account) :
    Uncounted r (r.modifyChannel c f) where
  config := rfl
  metrics := rfl
  live := rfl
  connections := rfl
  sessions := rfl
  channels := map_modify_of_eq .vacant h

theorem session_account (h : Uncounted r r') (s : SessionRef) :
    (r'.session s).account = (r.session s).account := by
  have hget := congrArg (·.getD s Session.vacant.account) h.sessions
  simpa only [List.getD_map, session] using hget

theorem channel_account (h : Uncounted r r') (c : ChannelRef) :
    (r'.channel c).account = (r.channel c).account := by
  have hget := congrArg (·.getD c Channel.vacant.account) h.channels
  simpa only [List.getD_map, channel] using hget

end Uncounted

theorem uncounted_disarm (duty : Duty) (r : Relay) : Uncounted r (r.disarm duty) := .of_eq rfl

theorem uncounted_armEvery (period : Option Nat) (duty : Duty) (r : Relay) :
    Uncounted r (r.armEvery period duty) := by
  unfold armEvery
  split <;> exact .of_eq rfl

/-! ### On channels -/

theorem push_uncounted (s : SessionRef) (header : Wire.Header) (response : Response) :
    (push s header response).Each Uncounted :=
  each_modify fun r => .modifySession r s fun _ => rfl

theorem notifyStop_uncounted (s : SessionRef) (id : ChannelId) (relay : SocketAddr) :
    (notifyStop s id relay).Each Uncounted :=
  composed_each.notifyStop (push_uncounted ..)

theorem startChannel_uncounted (c : ChannelRef) : (startChannel c).Each Uncounted := by
  refine each_modify fun r => ?_
  dsimp only
  split
  · exact .refl r
  · have hstart : Uncounted r (r.modifyChannel c Channel.start) :=
      .modifyChannel r c (Channel.account_start _)
    exact (hstart.trans (uncounted_armEvery ..)).trans (uncounted_armEvery ..)

theorem retireChannel_uncounted (c : ChannelRef) : (retireChannel c).Each Uncounted := by
  refine each_modify fun r => ?_
  have hretire : Uncounted r (r.modifyChannel c fun ch => (ch.retire .src).retire .dst) :=
    .modifyChannel r c rfl
  exact (hretire.trans (uncounted_disarm ..)).trans (uncounted_disarm ..)

theorem report_uncounted (c : ChannelRef) : (report c).Each Uncounted := by
  refine each_modify fun r => ?_
  dsimp only
  split
  · exact .modifyChannel r c rfl
  · exact .refl r

theorem reserveSlot_uncounted : reserveSlot.Each Uncounted := by
  refine each_atomic fun r => ?_
  split <;> exact .of_eq rfl

theorem releaseSlot_uncounted : releaseSlot.Each Uncounted :=
  each_modify fun _ => .of_eq rfl

theorem listChannel_uncounted (id : ChannelId) (c : ChannelRef) :
    (listChannel id c).Each Uncounted := by
  refine each_atomic fun r => ?_
  split <;> exact .of_eq rfl

theorem forgetChannel_uncounted (id : ChannelId) : (forgetChannel id).Each Uncounted :=
  composed_each.forgetChannel releaseSlot_uncounted (each_atomic fun _ => .of_eq rfl)

theorem enter_uncounted (s : SessionRef) (side : Side) (id : ChannelId) (c : ChannelRef) :
    (enter s side id c).Each Uncounted := by
  refine each_atomic fun r => ?_
  split
  · exact .modifySession r s fun _ => Session.account_withChannels ..
  · exact .refl r

theorem leave_uncounted (s : SessionRef) (side : Side) (id : ChannelId) :
    (leave s side id).Each Uncounted :=
  each_atomic fun r => .modifySession r s fun _ => Session.account_withChannels ..

theorem takeChannels_uncounted (s : SessionRef) (side : Side) :
    (takeChannels s side).Each Uncounted :=
  each_takeChannels fun _ r => .modifySession r s fun _ => Session.account_withChannels ..

theorem register_uncounted (s : SessionRef) (side : Side) (id : ChannelId) (c : ChannelRef) :
    (register s side id c).Each Uncounted :=
  composed_each.register (enter_uncounted ..) (leave_uncounted ..)

theorem joinSessions_uncounted (c : ChannelRef) : (joinSessions c).Each Uncounted :=
  composed_each.joinSessions register_uncounted leave_uncounted c

theorem closeEnd_uncounted (id : ChannelId) (side : Side) (e : Channel.Endpoint) :
    (closeEnd id side e).Each Uncounted :=
  composed_each.closeEnd (leave_uncounted ..) (forgetChannel_uncounted id)
    (notifyStop_uncounted ..)

/-! ### On sessions -/

theorem releaseGuid_uncounted (guid : Guid) : (releaseGuid guid).Each Uncounted :=
  each_modify fun _ => .of_eq rfl

theorem enqueue_uncounted (op : Directory.Op) : (enqueue op).Each Uncounted :=
  each_modify fun _ => .of_eq rfl

theorem dismiss_uncounted (s : SessionRef) : (dismiss s).Each Uncounted :=
  composed_each.dismiss (each_atomic fun r => .modifySession r s fun _ => rfl)
    releaseGuid_uncounted (fun _ => each_modify fun _ => .of_eq rfl) enqueue_uncounted

theorem servePeers_uncounted (s : SessionRef) (header : Wire.Header) :
    (servePeers s header).Each Uncounted :=
  each_bind (each_read _) fun _ => push_uncounted ..

theorem refuseMalformed_uncounted (s : SessionRef) (header : Wire.Header) :
    (refuseMalformed s header).Each Uncounted :=
  composed_each.refuseMalformed (push_uncounted s header)

/-! ## Steps that count -/

/-- A property of operations that those which count nothing have, and that operations one
after another have if each of them has it. -/
structure Counting (T : (α : Type) → Op α → Prop) : Prop where
  quiet : ∀ {α : Type} {p : Op α}, p.Each Uncounted → T α p
  bind : ∀ {α β : Type} {p : Op α} {f : α → Op β}, T α p → (∀ a, T β (f a)) → T β (p >>= f)

namespace Counting

variable {T : (α : Type) → Op α → Prop} (h : Counting T)

include h

theorem composed : Composed T where
  pure a := h.quiet (each_pure a)
  look g := h.quiet (each_read g)
  bind := h.bind

theorem stopChannel (hclaim : ∀ c, T Bool (claimStop c)) (hclosed : ∀ c, T Unit (countClosed c))
    (c : ChannelRef) : T Unit (stopChannel c) :=
  h.composed.stopChannel (hclaim c) (h.composed.tearDown
    (fun id side e => h.quiet (closeEnd_uncounted id side e))
    (h.quiet (retireChannel_uncounted c)) (hclosed c))

theorem stopChannels (hstop : ∀ c, T Unit (Relay.stopChannel c)) (s : SessionRef) :
    T Unit (stopChannels s) :=
  h.composed.stopChannels (fun s side => h.quiet (takeChannels_uncounted s side))
    (h.composed.discardChannel (fun id => h.quiet (forgetChannel_uncounted id)) hstop) hstop s

theorem stopSession (hclaim : ∀ s, T Bool (claimEnd s))
    (hstop : ∀ c, T Unit (Relay.stopChannel c)) (hdetach : ∀ s, T Unit (detach s))
    (s : SessionRef) : T Unit (stopSession s) :=
  h.composed.stopSession (hclaim s) (h.quiet (each_modify fun r => uncounted_disarm _ r))
    (h.stopChannels hstop s) (h.quiet (dismiss_uncounted s)) (hdetach s)

theorem createChannel (hopen : ∀ src dst, T ChannelRef (openChannel src dst))
    (hstop : ∀ c, T Unit (Relay.stopChannel c)) (src : SessionRef) (id : SessionId) :
    T _ (createChannel src id) :=
  h.composed.createChannel (h.quiet reserveSlot_uncounted) (h.quiet releaseSlot_uncounted)
    (fun dst _ => hopen src dst) (fun id c => h.quiet (listChannel_uncounted id c))
    (fun c => h.quiet (joinSessions_uncounted c)) (fun id => h.quiet (forgetChannel_uncounted id))
    hstop id

theorem serveProxy (hcreate : ∀ s id, T _ (Relay.createChannel s id)) (s : SessionRef)
    (header : Wire.Header) (destination : SessionId) :
    T Unit (serveProxy s header destination) :=
  h.composed.serveProxy (fun s header response => h.quiet (push_uncounted s header response))
    hcreate (fun c => h.quiet (startChannel_uncounted c)) s header destination

theorem serveLogin (hin : T Unit (.modify (·.count Metrics.loginSucceeded)))
    (hout : T Unit (.modify (·.count Metrics.loginRefused))) (s : SessionRef)
    (header : Wire.Header) (guid : Guid) (privateAddr : Ipv4) :
    T Unit (serveLogin s header guid privateAddr) := by
  have hreserve (guid : Guid) : (reserveGuid guid).Each Uncounted := by
    refine each_atomic fun r => ?_
    split <;> exact .of_eq rfl
  have htake : takeSessionId.Each Uncounted := each_atomic fun _ => .of_eq rfl
  have hindex (id : SessionId) : (indexSession id s).Each Uncounted := by
    refine each_atomic fun r => ?_
    split <;> exact .of_eq rfl
  have hmodify {f : Session → Session} (hf : ∀ x, (f x).account = x.account) :
      (Steps.modify fun r : Relay => r.modifySession s f).Each Uncounted :=
    each_modify fun r => .modifySession r s hf
  have hlogIn : ∀ guid, T _ (logIn s guid) :=
    h.composed.logIn (fun guid => h.quiet (hreserve guid)) (h.quiet htake)
      (fun id => h.quiet (hindex id)) (fun op => h.quiet (enqueue_uncounted op))
      (fun guid => h.quiet (releaseGuid_uncounted guid)) hin hout
  exact h.composed.serveLogin (fun response => h.quiet (push_uncounted s header response)) hlogIn
    (fun _ _ _ => h.quiet (hmodify fun _ => rfl)) (h.quiet (hmodify fun _ => rfl))
    (h.quiet (each_modify fun r => uncounted_disarm _ r)) (h.quiet (dismiss_uncounted s))
    guid privateAddr

theorem serveFrame
    (hlogin : ∀ s header guid privateAddr, T Unit (Relay.serveLogin s header guid privateAddr))
    (hproxy : ∀ s header destination, T Unit (Relay.serveProxy s header destination))
    (s : SessionRef) (frame : Frame) : T Unit (serveFrame s frame) :=
  h.composed.serveFrame hlogin hproxy (fun s header => h.quiet (servePeers_uncounted s header))
    (fun s header => h.quiet (refuseMalformed_uncounted s header)) s frame

/-- Of what a client sends, logins and requests for channels are counted, and bytes that make
no frame. -/
theorem receive (hframe : ∀ s frame, T Unit (Relay.serveFrame s frame))
    (hskip : T Unit (.modify (·.count Metrics.resynced)))
    (hunread : ∀ s unread, T Unit (.modify (·.modifySession s ({ · with unread }))))
    (s : SessionRef) (data : Bytes) : T Unit (receive s data) :=
  h.composed.receive (hunread s) (hframe s) hskip data

/-- What the end of a channel and of a session have, and whatever comes in, every event has. -/
theorem event (hstop : ∀ c, T Unit (Relay.stopChannel c))
    (hsession : ∀ s, T Unit (Relay.stopSession s)) {e : Event} (harrive : e.Arrives → T Unit e.op) :
    T Unit e.op :=
  h.composed.event hstop hsession (fun c => h.quiet (report_uncounted c))
    (fun _ => h.quiet (each_modify fun _ => .of_eq rfl))
    (h.quiet (each_modify fun _ => .of_eq rfl)) harrive

end Counting

end Relay

end PeerRelay
