import Mathlib.Algebra.Group.Nat.Defs
import PeerRelay.Proofs.Channel.Run
import PeerRelay.Proofs.Relay.Makeup

/-!
# What operations leave alone

Two views of a relay: who its sessions are and what they hold by their logins,
and which channels stand where. Each operation is shown to leave one of the
views alone, or both, at every single step. What an operation does to a view
that it changes is told elsewhere.
-/

namespace PeerRelay

open Steps

/-- A session apart from its channels and its stream. -/
def Session.identity (s : Session) : Session :=
  { s with srcChannels := .empty, dstChannels := .empty, unread := [], outbox := [] }

@[simp] theorem Session.identity_withChannels (s : Session) (side : Side)
    (entries : Registry ChannelId ChannelRef) :
    (s.withChannels side entries).identity = s.identity := by
  cases side <;> rfl

@[simp] theorem Session.channels_withChannels (s : Session) (side : Side)
    (entries : Registry ChannelId ChannelRef) (other : Side) :
    (s.withChannels side entries).channels other =
      if other = side then entries else s.channels other := by
  cases side <;> cases other <;> rfl

theorem Session.withChannels_channels (x : Session) (side : Side) :
    x.withChannels side (x.channels side) = x := by
  cases side <;> rfl

theorem Session.withChannels_withChannels (x : Session) (side : Side)
    (entries others : Registry ChannelId ChannelRef) :
    (x.withChannels side entries).withChannels side others = x.withChannels side others := by
  cases side <;> rfl

@[simp] theorem Session.channels_push (s : Session) (header : Wire.Header)
    (response : Response) (side : Side) :
    (s.push header response).channels side = s.channels side := by
  cases side <;> rfl

namespace Relay

/-! ## Looking up sessions and channels -/

theorem session_of_le {r : Relay} {s : SessionRef} (h : r.sessions.length ≤ s) :
    r.session s = .vacant := by
  simp [session, List.getD_eq_getElem?_getD, List.getElem?_eq_none h]

theorem channel_of_le {r : Relay} {c : ChannelRef} (h : r.channels.length ≤ c) :
    r.channel c = .vacant := by
  simp [channel, List.getD_eq_getElem?_getD, List.getElem?_eq_none h]

theorem lt_of_running {r : Relay} {s : SessionRef} (h : (r.session s).running = true) :
    s < r.sessions.length := by
  refine Nat.lt_of_not_le fun hs => ?_
  rw [session_of_le hs] at h
  cases h

theorem lt_of_loggedIn {r : Relay} {s : SessionRef} (h : (r.session s).loggedIn = true) :
    s < r.sessions.length := by
  refine Nat.lt_of_not_le fun hs => ?_
  rw [session_of_le hs] at h
  cases h

theorem lt_of_stopped_eq_false {r : Relay} {c : ChannelRef}
    (h : (r.channel c).stopped = false) : c < r.channels.length := by
  refine Nat.lt_of_not_le fun hc => ?_
  rw [channel_of_le hc] at h
  cases h

theorem getD_append_singleton {α : Type} (xs : List α) (x default : α) (n : Nat) :
    (xs ++ [x]).getD n default = if n = xs.length then x else xs.getD n default := by
  simp only [List.getD_eq_getElem?_getD, List.getElem?_append]
  rcases Nat.lt_trichotomy n xs.length with h | h | h
  · simp [h, Nat.ne_of_lt h]
  · simp [h]
  · have hne : n - xs.length ≠ 0 := Nat.sub_ne_zero_of_lt h
    simp [Nat.not_lt_of_lt h, Nat.ne_of_gt h, hne]

theorem session_append (r : Relay) (x : Session) (s : SessionRef) :
    (r.sessions ++ [x]).getD s .vacant =
      if s = r.sessions.length then x else r.session s :=
  getD_append_singleton ..

theorem channel_append (r : Relay) (x : Channel) (c : ChannelRef) :
    (r.channels ++ [x]).getD c .vacant =
      if c = r.channels.length then x else r.channel c :=
  getD_append_singleton ..

theorem modify_congr {α : Type} {xs : List α} {n : Nat} {f g : α → α} (default : α)
    (h : f (xs.getD n default) = g (xs.getD n default)) : xs.modify n f = xs.modify n g := by
  apply List.ext_getElem?
  intro m
  rw [List.getElem?_modify, List.getElem?_modify]
  cases hx : xs[m]? with
  | none => rfl
  | some x =>
      by_cases hnm : n = m
      · subst hnm
        rw [List.getD_eq_getElem?_getD, hx, Option.getD_some] at h
        simp [h]
      · simp [hnm]

theorem modify_of_eq {α : Type} {xs : List α} {n : Nat} {f : α → α} {default : α}
    (h : f (xs.getD n default) = xs.getD n default) : xs.modify n f = xs :=
  (modify_congr default h).trans (List.modify_id n xs)

/-- A change that does nothing to the session it is made to does nothing. -/
theorem modifySession_of_eq {r : Relay} {s : SessionRef} {f : Session → Session}
    (h : f (r.session s) = r.session s) : r.modifySession s f = r := by
  have hsame : r.sessions.modify s f = r.sessions := modify_of_eq h
  rw [modifySession, hsame]

theorem modifyChannel_of_eq {r : Relay} {c : ChannelRef} {f : Channel → Channel}
    (h : f (r.channel c) = r.channel c) : r.modifyChannel c f = r := by
  have hsame : r.channels.modify c f = r.channels := modify_of_eq h
  rw [modifyChannel, hsame]

/-- Changes that do the same to the channel that they are made to do the same. -/
theorem modifyChannel_congr {r : Relay} {c : ChannelRef} {f g : Channel → Channel}
    (h : f (r.channel c) = g (r.channel c)) : r.modifyChannel c f = r.modifyChannel c g := by
  have hsame : r.channels.modify c f = r.channels.modify c g := modify_congr .vacant h
  rw [modifyChannel, hsame, modifyChannel]

/-- To take the channels of a session out of their registry changes nothing but its entries. -/
theorem each_takeChannels {R : Relay → Relay → Prop} {s : SessionRef} {side : Side}
    (h : ∀ entries r, R r (r.modifySession s (·.withChannels side entries))) :
    (takeChannels s side).Each R := by
  refine each_bind (each_atomic fun r => ?_) fun _ => each_within h _
  have hread := h ((r.session s).channels side) r
  rwa [modifySession_of_eq (Session.withChannels_channels ..)] at hread

theorem modifySession_modifySession (r : Relay) (s : SessionRef) (f g : Session → Session) :
    (r.modifySession s f).modifySession s g = r.modifySession s (g ∘ f) := by
  simp only [modifySession, List.modify_modify_eq]

/-- A change of one session leaves a value alone that it leaves alone in that session. -/
theorem session_modifySession_congr {α : Type} (g : Session → α) {r : Relay}
    {s : SessionRef} {f : Session → Session} (h : ∀ x, g (f x) = g x) (t : SessionRef) :
    g ((r.modifySession s f).session t) = g (r.session t) := by
  rw [session_modifySession]
  split
  · exact h _
  · rfl

/-- A change of one channel leaves a value alone that it leaves alone in that channel. -/
theorem channel_modifyChannel_congr {α : Type} (g : Channel → α) {r : Relay}
    {c : ChannelRef} {f : Channel → Channel} (h : g (f (r.channel c)) = g (r.channel c))
    (d : ChannelRef) : g ((r.modifyChannel c f).channel d) = g (r.channel d) := by
  rw [channel_modifyChannel]
  split
  · rename_i hcd
    rw [← hcd.1]
    exact h
  · rfl

/-- If the change of one channel is a run of it, every channel has gone through some run. -/
theorem ran_modifyChannel {r : Relay} {c : ChannelRef} {f : Channel → Channel}
    (h : (r.channel c).Ran (f (r.channel c))) (d : ChannelRef) :
    (r.channel d).Ran ((r.modifyChannel c f).channel d) := by
  rw [channel_modifyChannel]
  split
  · rename_i hcd
    rw [← hcd.1]
    exact h
  · exact .refl _

/-! ## Ids from a counter -/

/-- The id that is handed out after so many others. The counter has 32 bits. -/
def idAt (first : UInt32) (n : Nat) : UInt32 := first + UInt32.ofNat n

theorem idAt_toNat {first : UInt32} {n : Nat} (h : first.toNat + n < 2 ^ 32) :
    (idAt first n).toNat = first.toNat + n := by
  simp only [idAt, UInt32.toNat_add, UInt32.toNat_ofNat']
  omega

theorem idAt_succ (first : UInt32) (n : Nat) : idAt first n + 1 = idAt first (n + 1) := by
  simp only [idAt, UInt32.ofNat_add, UInt32.add_assoc]
  rfl

theorem idAt_inj {first : UInt32} {m n : Nat} (hm : m < 2 ^ 32) (hn : n < 2 ^ 32)
    (h : idAt first m = idAt first n) : m = n := by
  have hnat := congrArg UInt32.toNat h
  simp only [idAt, UInt32.toNat_add, UInt32.toNat_ofNat'] at hnat
  omega

/-! ## The view of the logins -/

/-- What a relay keeps of sessions and their logins, and nothing else. -/
def loginPart (r : Relay) : Relay where
  sessions := r.sessions
  guids := r.guids
  index := r.index
  directory := r.directory
  nextSessionId := r.nextSessionId
  issued := r.issued
  live := r.live
  connections := r.connections

/-- Who the sessions are, and everything that is held by being logged in or connected,
is what it was. -/
structure SameLogins (r r' : Relay) : Prop where
  length : r'.sessions.length = r.sessions.length
  identity : ∀ s, (r'.session s).identity = (r.session s).identity
  guids : r'.guids = r.guids
  index : r'.index = r.index
  directory : r'.directory = r.directory
  nextSessionId : r'.nextSessionId = r.nextSessionId
  issued : r'.issued = r.issued
  live : r'.live = r.live
  connections : r'.connections = r.connections

namespace SameLogins

variable {r r' r'' : Relay}

/-- What leaves all of this alone, sessions included. -/
theorem of_eq (h : r'.loginPart = r.loginPart) : SameLogins r r' := by
  have hsame {α : Type} (g : Relay → α) : g r'.loginPart = g r.loginPart := congrArg g h
  have hsessions : r'.sessions = r.sessions := hsame Relay.sessions
  refine ⟨by rw [hsessions], ?_, hsame Relay.guids, hsame Relay.index, hsame Relay.directory,
    hsame Relay.nextSessionId, hsame Relay.issued, hsame Relay.live, hsame Relay.connections⟩
  intro s
  rw [session, hsessions, session]

theorem refl (r : Relay) : SameLogins r r := of_eq rfl

theorem trans (h : SameLogins r r') (h' : SameLogins r' r'') : SameLogins r r'' where
  length := h'.length.trans h.length
  identity s := (h'.identity s).trans (h.identity s)
  guids := h'.guids.trans h.guids
  index := h'.index.trans h.index
  directory := h'.directory.trans h.directory
  nextSessionId := h'.nextSessionId.trans h.nextSessionId
  issued := h'.issued.trans h.issued
  live := h'.live.trans h.live
  connections := h'.connections.trans h.connections

instance : Std.Refl SameLogins := ⟨refl⟩

instance : Trans SameLogins SameLogins SameLogins := ⟨trans⟩

theorem modifySession (r : Relay) (s : SessionRef) {f : Session → Session}
    (h : ∀ x, (f x).identity = x.identity) : SameLogins r (r.modifySession s f) :=
  ⟨by simp [Relay.modifySession], session_modifySession_congr Session.identity h,
    rfl, rfl, rfl, rfl, rfl, rfl, rfl⟩

/-- Whatever hangs on the identity of a session alone is what it was. -/
theorem congr {α : Type} (g : Session → α) (hg : ∀ x, g x.identity = g x)
    (h : SameLogins r r') (s : SessionRef) : g (r'.session s) = g (r.session s) := by
  rw [← hg, h.identity, hg]

theorem running (h : SameLogins r r') (s : SessionRef) :
    (r'.session s).running = (r.session s).running :=
  h.congr Session.running (fun _ => rfl) s

theorem loggedIn (h : SameLogins r r') (s : SessionRef) :
    (r'.session s).loggedIn = (r.session s).loggedIn :=
  h.congr Session.loggedIn (fun _ => rfl) s

theorem id (h : SameLogins r r') (s : SessionRef) : (r'.session s).id = (r.session s).id :=
  h.congr Session.id (fun _ => rfl) s

theorem guid (h : SameLogins r r') (s : SessionRef) : (r'.session s).guid = (r.session s).guid :=
  h.congr Session.guid (fun _ => rfl) s

theorem role (h : SameLogins r r') (s : SessionRef) : (r'.session s).role = (r.session s).role :=
  h.congr Session.role (fun _ => rfl) s

theorem privateAddr (h : SameLogins r r') (s : SessionRef) :
    (r'.session s).privateAddr = (r.session s).privateAddr :=
  h.congr Session.privateAddr (fun _ => rfl) s

end SameLogins

/-! ## The view of the channels -/

/-- What a relay keeps of channels and the sessions' entries for them, its limits, and
nothing else. -/
def channelPart (r : Relay) : Relay where
  config := r.config
  sessions := r.sessions
  channels := r.channels
  listed := r.listed
  slots := r.slots
  nextChannelId := r.nextChannelId

/-- Every session and every channel is still there, a channel is over if it was over, and what
is registered of it, its slot and the limits are what they were. -/
structure SameChannels (r r' : Relay) : Prop where
  config : r'.config = r.config
  sessions : r.sessions.length ≤ r'.sessions.length
  length : r'.channels.length = r.channels.length
  ran : ∀ c, (r.channel c).Ran (r'.channel c)
  stopped : ∀ c, (r'.channel c).stopped = (r.channel c).stopped
  entries : ∀ s side, (r'.session s).channels side = (r.session s).channels side
  listed : r'.listed = r.listed
  slots : r'.slots = r.slots
  nextChannelId : r'.nextChannelId = r.nextChannelId

namespace SameChannels

variable {r r' r'' : Relay}

/-- What leaves all of this alone, sessions and channels included. -/
theorem of_eq (h : r'.channelPart = r.channelPart) : SameChannels r r' := by
  have hsame {α : Type} (g : Relay → α) : g r'.channelPart = g r.channelPart := congrArg g h
  have hsessions : r'.sessions = r.sessions := hsame Relay.sessions
  have hchannels : r'.channels = r.channels := hsame Relay.channels
  have hchannel (c : ChannelRef) : r'.channel c = r.channel c := by
    rw [channel, hchannels, channel]
  refine ⟨hsame Relay.config, by rw [hsessions], by rw [hchannels], ?_, ?_, ?_, hsame Relay.listed,
    hsame Relay.slots, hsame Relay.nextChannelId⟩
  · intro c
    rw [hchannel]
    exact .refl _
  · intro c
    rw [hchannel]
  · intro s side
    rw [session, hsessions, session]

theorem refl (r : Relay) : SameChannels r r := of_eq rfl

theorem trans (h : SameChannels r r') (h' : SameChannels r' r'') : SameChannels r r'' where
  config := h'.config.trans h.config
  sessions := Nat.le_trans h.sessions h'.sessions
  length := h'.length.trans h.length
  ran c := (h.ran c).trans (h'.ran c)
  stopped c := (h'.stopped c).trans (h.stopped c)
  entries s side := (h'.entries s side).trans (h.entries s side)
  listed := h'.listed.trans h.listed
  slots := h'.slots.trans h.slots
  nextChannelId := h'.nextChannelId.trans h.nextChannelId

instance : Std.Refl SameChannels := ⟨refl⟩

instance : Trans SameChannels SameChannels SameChannels := ⟨trans⟩

theorem modifySession (r : Relay) (s : SessionRef) {f : Session → Session}
    (h : ∀ x side, (f x).channels side = x.channels side) :
    SameChannels r (r.modifySession s f) :=
  ⟨rfl, Nat.le_of_eq (List.length_modify ..).symm, rfl, fun _ => .refl _, fun _ => rfl,
    fun t side => session_modifySession_congr (·.channels side) (h · side) t, rfl, rfl, rfl⟩

theorem modifyChannel (r : Relay) (c : ChannelRef) {f : Channel → Channel}
    (hran : (r.channel c).Ran (f (r.channel c)))
    (hs : (f (r.channel c)).stopped = (r.channel c).stopped) :
    SameChannels r (r.modifyChannel c f) :=
  ⟨rfl, Nat.le_refl _, by simp [Relay.modifyChannel], ran_modifyChannel hran,
    channel_modifyChannel_congr Channel.stopped hs, fun _ _ => rfl, rfl, rfl, rfl⟩

theorem terms (h : SameChannels r r') (c : ChannelRef) :
    (r'.channel c).terms = (r.channel c).terms :=
  (h.ran c).terms_eq

end SameChannels

/-! ## Operations that leave both views alone -/

theorem sameLogins_disarm (duty : Duty) (r : Relay) : SameLogins r (r.disarm duty) :=
  .of_eq rfl

theorem sameChannels_disarm (duty : Duty) (r : Relay) : SameChannels r (r.disarm duty) :=
  .of_eq rfl

theorem sameLogins_count (f : Metrics → Metrics) (r : Relay) : SameLogins r (r.count f) :=
  .of_eq rfl

theorem sameChannels_count (f : Metrics → Metrics) (r : Relay) : SameChannels r (r.count f) :=
  .of_eq rfl

theorem sameLogins_modifyChannel (c : ChannelRef) (f : Channel → Channel) (r : Relay) :
    SameLogins r (r.modifyChannel c f) :=
  .of_eq rfl

theorem sameLogins_armEvery (period : Option Nat) (duty : Duty) (r : Relay) :
    SameLogins r (r.armEvery period duty) := by
  unfold armEvery
  split <;> exact .of_eq rfl

theorem sameChannels_armEvery (period : Option Nat) (duty : Duty) (r : Relay) :
    SameChannels r (r.armEvery period duty) := by
  unfold armEvery
  split <;> exact .of_eq rfl

theorem push_sameLogins (s : SessionRef) (header : Wire.Header) (response : Response) :
    (push s header response).Each SameLogins :=
  each_modify fun r => .modifySession r s fun _ => rfl

theorem push_sameChannels (s : SessionRef) (header : Wire.Header) (response : Response) :
    (push s header response).Each SameChannels :=
  each_modify fun r => .modifySession r s fun _ _ => Session.channels_push ..

theorem notifyStop_sameLogins (s : SessionRef) (id : ChannelId) (relay : SocketAddr) :
    (notifyStop s id relay).Each SameLogins :=
  composed_each.notifyStop (push_sameLogins ..)

theorem notifyStop_sameChannels (s : SessionRef) (id : ChannelId) (relay : SocketAddr) :
    (notifyStop s id relay).Each SameChannels :=
  composed_each.notifyStop (push_sameChannels ..)

theorem startChannel_sameLogins (c : ChannelRef) : (startChannel c).Each SameLogins := by
  refine each_modify fun r => ?_
  dsimp only
  split
  · exact .refl r
  · exact ((sameLogins_modifyChannel ..).trans (sameLogins_armEvery ..)).trans
      (sameLogins_armEvery ..)

theorem startChannel_sameChannels (c : ChannelRef) : (startChannel c).Each SameChannels := by
  refine each_modify fun r => ?_
  dsimp only
  split
  · exact .refl r
  · have hstart : SameChannels r (r.modifyChannel c Channel.start) :=
      .modifyChannel r c (.step _ .start) (Channel.stopped_start _)
    exact (hstart.trans (sameChannels_armEvery ..)).trans (sameChannels_armEvery ..)

theorem retireChannel_sameLogins (c : ChannelRef) : (retireChannel c).Each SameLogins :=
  each_modify fun r => ((sameLogins_modifyChannel c _ r).trans (sameLogins_disarm ..)).trans
    (sameLogins_disarm ..)

theorem retireChannel_sameChannels (c : ChannelRef) : (retireChannel c).Each SameChannels := by
  refine each_modify fun r => ?_
  have hretire : SameChannels r (r.modifyChannel c fun ch => (ch.retire .src).retire .dst) :=
    .modifyChannel r c ⟨[.retire .src, .retire .dst], rfl⟩ (by simp [Channel.retire])
  exact (hretire.trans (sameChannels_disarm ..)).trans (sameChannels_disarm ..)

theorem countClosed_sameLogins (c : ChannelRef) : (countClosed c).Each SameLogins :=
  each_modify fun r => sameLogins_count _ r

theorem countClosed_sameChannels (c : ChannelRef) : (countClosed c).Each SameChannels :=
  each_modify fun r => sameChannels_count _ r

theorem datagram_sameLogins (c : ChannelRef) (side : Side) (sender : SocketAddr)
    (data : Bytes) : (datagram c side sender data).Each SameLogins :=
  each_modify fun _ => .of_eq rfl

theorem datagram_sameChannels (c : ChannelRef) (side : Side) (sender : SocketAddr)
    (data : Bytes) : (datagram c side sender data).Each SameChannels := by
  refine each_modify fun r => ?_
  have hran := Channel.Ran.step (r.channel c) (.datagram side r.now sender data)
  have hs := (Channel.receive_keeps (r.channel c) side r.now sender data).2
  have hreceive := SameChannels.modifyChannel r c
    (f := fun _ => ((r.channel c).receive side r.now sender data).1) hran hs
  exact ⟨hreceive.config, hreceive.sessions, hreceive.length, hreceive.ran, hreceive.stopped,
    hreceive.entries, hreceive.listed, hreceive.slots, hreceive.nextChannelId⟩

theorem report_sameLogins (c : ChannelRef) : (report c).Each SameLogins := by
  refine each_modify fun r => ?_
  dsimp only
  split
  · exact sameLogins_modifyChannel ..
  · exact .refl r

theorem report_sameChannels (c : ChannelRef) : (report c).Each SameChannels := by
  refine each_modify fun r => ?_
  dsimp only
  split
  · exact .modifyChannel r c (.step _ (.tick r.now)) rfl
  · exact .refl r

theorem refuseMalformed_sameLogins (s : SessionRef) (header : Wire.Header) :
    (refuseMalformed s header).Each SameLogins :=
  composed_each.refuseMalformed (push_sameLogins s header)

theorem refuseMalformed_sameChannels (s : SessionRef) (header : Wire.Header) :
    (refuseMalformed s header).Each SameChannels :=
  composed_each.refuseMalformed (push_sameChannels s header)

theorem servePeers_sameLogins (s : SessionRef) (header : Wire.Header) :
    (servePeers s header).Each SameLogins :=
  each_bind (each_read _) fun _ => push_sameLogins ..

theorem servePeers_sameChannels (s : SessionRef) (header : Wire.Header) :
    (servePeers s header).Each SameChannels :=
  each_bind (each_read _) fun _ => push_sameChannels ..

/-! ## Operations on channels leave the logins alone -/

theorem reserveSlot_sameLogins : reserveSlot.Each SameLogins := by
  refine each_atomic fun r => ?_
  split <;> exact .of_eq rfl

theorem releaseSlot_sameLogins : releaseSlot.Each SameLogins :=
  each_modify fun _ => .of_eq rfl

theorem openChannel_sameLogins (src dst : SessionRef) :
    (openChannel src dst).Each SameLogins :=
  each_atomic fun _ => .of_eq rfl

theorem listChannel_sameLogins (id : ChannelId) (c : ChannelRef) :
    (listChannel id c).Each SameLogins := by
  refine each_atomic fun r => ?_
  split <;> exact .of_eq rfl

theorem forgetChannel_sameLogins (id : ChannelId) : (forgetChannel id).Each SameLogins :=
  composed_each.forgetChannel releaseSlot_sameLogins (each_atomic fun _ => .of_eq rfl)

theorem enter_sameLogins (s : SessionRef) (side : Side) (id : ChannelId) (c : ChannelRef) :
    (enter s side id c).Each SameLogins := by
  refine each_atomic fun r => ?_
  split
  · exact .modifySession r s fun _ => Session.identity_withChannels ..
  · exact .refl r

theorem leave_sameLogins (s : SessionRef) (side : Side) (id : ChannelId) :
    (leave s side id).Each SameLogins :=
  each_atomic fun r => .modifySession r s fun _ => Session.identity_withChannels ..

theorem register_sameLogins (s : SessionRef) (side : Side) (id : ChannelId)
    (c : ChannelRef) : (register s side id c).Each SameLogins :=
  composed_each.register (enter_sameLogins ..) (leave_sameLogins ..)

theorem joinSessions_sameLogins (c : ChannelRef) : (joinSessions c).Each SameLogins :=
  composed_each.joinSessions register_sameLogins leave_sameLogins c

theorem closeEnd_sameLogins (id : ChannelId) (side : Side) (e : Channel.Endpoint) :
    (closeEnd id side e).Each SameLogins :=
  composed_each.closeEnd (leave_sameLogins ..) (forgetChannel_sameLogins id)
    (notifyStop_sameLogins ..)

theorem stopChannel_sameLogins (c : ChannelRef) : (stopChannel c).Each SameLogins :=
  composed_each.stopChannel (each_atomic fun r => sameLogins_modifyChannel c _ r)
    (composed_each.tearDown closeEnd_sameLogins (retireChannel_sameLogins c)
      (countClosed_sameLogins c))

theorem createChannel_sameLogins (src : SessionRef) (id : SessionId) :
    (createChannel src id).Each SameLogins :=
  composed_each.createChannel reserveSlot_sameLogins releaseSlot_sameLogins
    (fun dst _ => openChannel_sameLogins src dst) listChannel_sameLogins joinSessions_sameLogins
    forgetChannel_sameLogins stopChannel_sameLogins id

theorem serveProxy_sameLogins (s : SessionRef) (header : Wire.Header)
    (destination : SessionId) : (serveProxy s header destination).Each SameLogins :=
  composed_each.serveProxy push_sameLogins createChannel_sameLogins startChannel_sameLogins
    s header destination

theorem takeChannels_sameLogins (s : SessionRef) (side : Side) :
    (takeChannels s side).Each SameLogins :=
  each_takeChannels fun _ r => .modifySession r s fun _ => Session.identity_withChannels ..

/-! ## Operations on logins leave the channels alone -/

theorem reserveConnection_sameChannels : reserveConnection.Each SameChannels := by
  refine each_atomic fun r => ?_
  split <;> exact .of_eq rfl

theorem releaseConnection_sameChannels : releaseConnection.Each SameChannels :=
  each_modify fun _ => .of_eq rfl

theorem startSession_sameChannels (role : Role) (peer localAddr : SocketAddr) (held : Bool) :
    (startSession role peer localAddr held).Each SameChannels := by
  refine each_atomic fun r =>
    ⟨rfl, by simp [arm], rfl, fun _ => .refl _, fun _ => rfl, fun s side => ?_, rfl, rfl, rfl⟩
  change Session.channels ((r.sessions ++ [_]).getD s .vacant) side = _
  rw [session_append]
  split
  · rename_i hs
    rw [session_of_le (Nat.le_of_eq hs.symm)]
    cases side <;> rfl
  · rfl

theorem accept_sameChannels (role : Role) (peer localAddr : SocketAddr) (held : Bool) :
    (accept role peer localAddr held).Each SameChannels :=
  composed_each.accept reserveConnection_sameChannels startSession_sameChannels
    role peer localAddr held

theorem detach_sameChannels (s : SessionRef) : (detach s).Each SameChannels :=
  composed_each.detach (each_atomic fun _ => .of_eq rfl) releaseConnection_sameChannels
    (each_modify fun r => sameChannels_count _ r)

theorem releaseGuid_sameChannels (guid : Guid) : (releaseGuid guid).Each SameChannels :=
  each_modify fun _ => .of_eq rfl

theorem enqueue_sameChannels (op : Directory.Op) : (enqueue op).Each SameChannels :=
  each_modify fun _ => .of_eq rfl

theorem logIn_sameChannels (s : SessionRef) (guid : Guid) :
    (logIn s guid).Each SameChannels := by
  have hreserve (guid : Guid) : (reserveGuid guid).Each SameChannels := by
    refine each_atomic fun r => ?_
    split <;> exact .of_eq rfl
  have htake : takeSessionId.Each SameChannels :=
    each_atomic fun _ => .of_eq rfl
  have hindex (id : SessionId) : (indexSession id s).Each SameChannels := by
    refine each_atomic fun r => ?_
    split <;> exact .of_eq rfl
  have hcount (f : Metrics → Metrics) :
      (Steps.modify fun r : Relay => r.count f).Each SameChannels :=
    each_modify fun r => sameChannels_count f r
  exact composed_each.logIn hreserve htake hindex enqueue_sameChannels releaseGuid_sameChannels
    (hcount _) (hcount _) guid

theorem dismiss_sameChannels (s : SessionRef) : (dismiss s).Each SameChannels :=
  composed_each.dismiss
    (each_atomic fun r => .modifySession r s fun _ side => by cases side <;> rfl)
    releaseGuid_sameChannels (fun _ => each_modify fun _ => .of_eq rfl) enqueue_sameChannels

theorem serveLogin_sameChannels (s : SessionRef) (header : Wire.Header) (guid : Guid)
    (privateAddr : Ipv4) : (serveLogin s header guid privateAddr).Each SameChannels := by
  have hmodify {f : Session → Session} (hf : ∀ x side, (f x).channels side = x.channels side) :
      (Steps.modify fun r : Relay => r.modifySession s f).Each SameChannels :=
    each_modify fun r => .modifySession r s hf
  exact composed_each.serveLogin (push_sameChannels s header) (logIn_sameChannels s)
    (fun _ _ _ => hmodify fun _ side => by cases side <;> rfl)
    (hmodify fun _ side => by cases side <;> rfl)
    (each_modify fun r => sameChannels_disarm _ r) (dismiss_sameChannels s) guid privateAddr

/-! ## The end of a session, in parts -/

theorem discardChannel_sameLogins (c : ChannelRef) : (discardChannel c).Each SameLogins :=
  composed_each.discardChannel forgetChannel_sameLogins stopChannel_sameLogins c

theorem stopChannels_sameLogins (s : SessionRef) : (stopChannels s).Each SameLogins :=
  composed_each.stopChannels takeChannels_sameLogins discardChannel_sameLogins
    stopChannel_sameLogins s

/-- A relay on which a session was just marked as ended. -/
def marked (s : SessionRef) (r : Relay) : Relay :=
  (r.modifySession s fun session => { session with running := false }).disarm (.login s)

/-- Marking a session as ended leaves a value alone that has nothing to do with that. -/
theorem marked_congr {α : Type} (g : Session → α) {r : Relay} {s : SessionRef}
    (h : ∀ x : Session, g { x with running := false } = g x) (t : SessionRef) :
    g ((r.marked s).session t) = g (r.session t) :=
  session_modifySession_congr g h t

theorem marked_sameChannels (r : Relay) (s : SessionRef) : SameChannels r (r.marked s) :=
  (SameChannels.modifySession r s fun _ side => by cases side <;> rfl).trans
    (sameChannels_disarm ..)

theorem length_marked (r : Relay) (s : SessionRef) :
    (r.marked s).sessions.length = r.sessions.length :=
  List.length_modify ..

theorem stopSession_of_running {r : Relay} {s : SessionRef}
    (h : (r.session s).running = true) :
    (stopSession s).exec r =
      (detach s).exec ((dismiss s).exec ((stopChannels s).exec (r.marked s))) := by
  have hclaim : (claimEnd s).run r =
      (true, r.modifySession s fun session => { session with running := false }) := by
    simp only [claimEnd, run_atomic, h]
  simp only [exec, stopSession, stopChannels, marked, run_bind, hclaim, if_true, run_modify]
  rfl

theorem stopSession_of_ended {r : Relay} {s : SessionRef}
    (h : (r.session s).running = false) : (stopSession s).exec r = r := by
  have hsame : (r.modifySession s fun session => { session with running := false }) = r := by
    refine modifySession_of_eq ?_
    rw [← h]
  have hclaim : (claimEnd s).run r = (false, r) := by
    simp only [claimEnd, run_atomic, h, hsame]
  simp only [exec, stopSession, run_bind, hclaim, Bool.false_eq_true, if_false, run_pure]

/-! ## Events, in parts -/

theorem step_due_login (r : Relay) (s : SessionRef) :
    r.step (.due (.login s)) =
      if (r.session s).loggedIn then r else (stopSession s).exec r := by
  by_cases hin : (r.session s).loggedIn = true
  · simp only [step, Event.op, perform, loginOverdue, exec, run_bind, run_read, run_pure, hin,
      Bool.not_true, Bool.false_eq_true, if_false, if_true]
  · simp only [step, Event.op, perform, loginOverdue, exec, run_bind, run_read, hin,
      Bool.not_false, Bool.false_eq_true, if_false, if_true]

theorem step_due_poll (r : Relay) (c : ChannelRef) :
    r.step (.due (.poll c)) =
      if (r.channel c).started && !(r.channel c).stopped && (r.channel c).isExpired r.now then
        (stopChannel c).exec r
      else r := by
  by_cases hexpired :
      ((r.channel c).started && !(r.channel c).stopped && (r.channel c).isExpired r.now) = true
  · simp only [step, Event.op, perform, poll, exec, run_bind, run_read, hexpired, if_true]
  · simp only [step, Event.op, perform, poll, exec, run_bind, run_read, hexpired,
      Bool.false_eq_true, if_false, run_pure]

theorem step_closeSession (r : Relay) (id : SessionId) :
    r.step (.closeSession id) =
      match r.liveSessions.find? (fun s => (r.session s).loggedIn && (r.session s).id == id) with
      | none => r
      | some s => (stopSession s).exec r := by
  simp only [step, Event.op, closeSession, exec, run_bind, run_read]
  cases r.liveSessions.find? fun s => (r.session s).loggedIn && (r.session s).id == id with
  | none => rfl
  | some s => simp only [run_bind, run_pure]

theorem step_closeChannel (r : Relay) (id : ChannelId) :
    r.step (.closeChannel id) =
      match r.listed.get? id with
      | none => r
      | some c => (stopChannel c).exec r := by
  simp only [step, Event.op, closeChannel, exec, run_bind, run_read]
  cases r.listed.get? id with
  | none => rfl
  | some c => simp only [run_bind, run_pure]

theorem step_stopAll (r : Relay) :
    r.step .stopAll = (r.liveSessions.forM stopSession).exec r := by
  simp only [step, Event.op, Relay.stopAll, exec_bind, run_read]
  rfl

theorem step_bytes_of_ended {r : Relay} {s : SessionRef} (h : (r.session s).running = false)
    (data : Bytes) : r.step (.bytes s data) = r := by
  simp only [step, Event.op, receive, exec, run_bind, run_read, h, Bool.false_eq_true,
    if_false, run_pure]

end Relay

end PeerRelay
