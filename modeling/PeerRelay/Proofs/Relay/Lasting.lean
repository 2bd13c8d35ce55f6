import PeerRelay.Proofs.Relay.Frame

/-!
# Channels last

A channel keeps its place and its terms for good, and once it is over it is
over for good, since all that ever becomes of it is a run from its making.
Every step of everything that a relay does keeps to this.
-/

namespace PeerRelay.Relay

open Steps

/-- Every channel is still there and has run on from where it was, and every new one has run
on from its making. -/
structure Lasting (r r' : Relay) : Prop where
  length : r.channels.length ≤ r'.channels.length
  ran : ∀ c < r.channels.length, (r.channel c).Ran (r'.channel c)
  made : ∀ c, r.channels.length ≤ c → c < r'.channels.length →
    ∃ x, Channel.Fresh x ∧ x.Ran (r'.channel c)

namespace Lasting

variable {r r' r'' : Relay}

/-- What makes no channel. -/
theorem of_length_eq (hlength : r'.channels.length = r.channels.length)
    (hran : ∀ c, (r.channel c).Ran (r'.channel c)) : Lasting r r' := by
  refine ⟨Nat.le_of_eq hlength.symm, fun c _ => hran c, fun c hle hlt => ?_⟩
  rw [hlength] at hlt
  exact absurd hlt (Nat.not_lt_of_le hle)

theorem refl (r : Relay) : Lasting r r := .of_length_eq rfl fun _ => .refl _

theorem trans (h : Lasting r r') (h' : Lasting r' r'') : Lasting r r'' where
  length := Nat.le_trans h.length h'.length
  ran c hc := (h.ran c hc).trans (h'.ran c (Nat.lt_of_lt_of_le hc h.length))
  made c hle hlt := by
    rcases Nat.lt_or_ge c r'.channels.length with hc | hc
    · obtain ⟨x, hx, hran⟩ := h.made c hle hc
      exact ⟨x, hx, hran.trans (h'.ran c hc)⟩
    · exact h'.made c hc hlt

instance : Std.Refl Lasting := ⟨refl⟩

instance : Trans Lasting Lasting Lasting := ⟨trans⟩

theorem terms (h : Lasting r r') : ∀ c < r.channels.length,
    (r'.channel c).terms = (r.channel c).terms :=
  fun c hc => (h.ran c hc).terms_eq

theorem id_eq (h : Lasting r r') {c : ChannelRef} (hc : c < r.channels.length) :
    (r'.channel c).id = (r.channel c).id :=
  congrArg Channel.Terms.id (h.terms c hc)

theorem stopped (h : Lasting r r') : ∀ c < r.channels.length,
    (r.channel c).stopped = true → (r'.channel c).stopped = true :=
  fun c hc => (h.ran c hc).stopped

/-- A channel that is open now was open before. -/
theorem open_before (h : Lasting r r') {c : ChannelRef} (hlt : c < r.channels.length)
    (hc : (r'.channel c).stopped = false) : (r.channel c).stopped = false := by
  cases hover : (r.channel c).stopped with
  | false => rfl
  | true => cases hc.symm.trans (h.stopped c hlt hover)

/-- What leaves the list of channels alone. -/
theorem of_channels_eq (h : r'.channels = r.channels) : Lasting r r' := by
  refine .of_length_eq (by rw [h]) fun c => ?_
  rw [channel, channel, h]
  exact .refl _

theorem modifyChannel (r : Relay) (c : ChannelRef) {f : Channel → Channel}
    (h : ∀ x : Channel, x.Ran (f x)) : Lasting r (r.modifyChannel c f) :=
  .of_length_eq (List.length_modify ..) (ran_modifyChannel (h _))

end Lasting

theorem SameChannels.lasting {r r' : Relay} (h : SameChannels r r') : Lasting r r' :=
  .of_length_eq h.length h.ran

theorem lasting_of_sameChannels {α : Type} {p : Op α} (h : p.Each SameChannels) :
    p.Each Lasting :=
  h.mono fun _ _ => SameChannels.lasting

/-! ## Slots, lists and entries -/

/-- The list of channels is what it was. -/
def KeepsChannels (r r' : Relay) : Prop := r'.channels = r.channels

instance : Std.Refl KeepsChannels := ⟨fun _ => rfl⟩

instance : Trans KeepsChannels KeepsChannels KeepsChannels := ⟨fun h h' => h'.trans h⟩

theorem KeepsChannels.channel {r r' : Relay} (h : KeepsChannels r r') (c : ChannelRef) :
    r'.channel c = r.channel c := by
  rw [Relay.channel, h, Relay.channel]

theorem lasting_of_keepsChannels {α : Type} {p : Op α} (h : p.Each KeepsChannels) :
    p.Each Lasting :=
  h.mono fun _ _ => .of_channels_eq

theorem reserveSlot_keepsChannels : reserveSlot.Each KeepsChannels := by
  refine each_atomic fun r => ?_
  split <;> rfl

theorem releaseSlot_keepsChannels : releaseSlot.Each KeepsChannels := each_modify fun _ => rfl

theorem listChannel_keepsChannels (id : ChannelId) (c : ChannelRef) :
    (listChannel id c).Each KeepsChannels := by
  refine each_atomic fun r => ?_
  split <;> rfl

theorem forgetChannel_keepsChannels (id : ChannelId) :
    (forgetChannel id).Each KeepsChannels :=
  composed_each.forgetChannel releaseSlot_keepsChannels (each_atomic fun _ => rfl)

theorem leave_keepsChannels (s : SessionRef) (side : Side) (id : ChannelId) :
    (leave s side id).Each KeepsChannels :=
  each_atomic fun _ => rfl

theorem register_keepsChannels (s : SessionRef) (side : Side) (id : ChannelId) (c : ChannelRef) :
    (register s side id c).Each KeepsChannels := by
  have henter : (enter s side id c).Each KeepsChannels := by
    refine each_atomic fun r => ?_
    split <;> rfl
  exact composed_each.register henter (leave_keepsChannels ..)

theorem joinSessions_keepsChannels (c : ChannelRef) : (joinSessions c).Each KeepsChannels :=
  composed_each.joinSessions register_keepsChannels leave_keepsChannels c

theorem closeEnd_keepsChannels (id : ChannelId) (side : Side) (e : Channel.Endpoint) :
    (closeEnd id side e).Each KeepsChannels :=
  composed_each.closeEnd (leave_keepsChannels ..) (forgetChannel_keepsChannels id)
    (composed_each.notifyStop (each_modify fun _ => rfl))

theorem takeChannels_keepsChannels (s : SessionRef) (side : Side) :
    (takeChannels s side).Each KeepsChannels :=
  each_takeChannels fun _ _ => rfl

theorem reserveSlot_lasting : reserveSlot.Each Lasting :=
  lasting_of_keepsChannels reserveSlot_keepsChannels

theorem releaseSlot_lasting : releaseSlot.Each Lasting :=
  lasting_of_keepsChannels releaseSlot_keepsChannels

theorem listChannel_lasting (id : ChannelId) (c : ChannelRef) : (listChannel id c).Each Lasting :=
  lasting_of_keepsChannels (listChannel_keepsChannels id c)

theorem forgetChannel_lasting (id : ChannelId) : (forgetChannel id).Each Lasting :=
  lasting_of_keepsChannels (forgetChannel_keepsChannels id)

theorem joinSessions_lasting (c : ChannelRef) : (joinSessions c).Each Lasting :=
  lasting_of_keepsChannels (joinSessions_keepsChannels c)

/-! ## Channels that begin and end -/

theorem tearDown_lasting (c : ChannelRef) : (tearDown c).Each Lasting :=
  composed_each.tearDown (fun _ _ _ => lasting_of_keepsChannels (closeEnd_keepsChannels ..))
    (lasting_of_sameChannels (retireChannel_sameChannels c))
    (lasting_of_sameChannels (countClosed_sameChannels c))

theorem stopChannel_lasting (c : ChannelRef) : (stopChannel c).Each Lasting :=
  composed_each.stopChannel
    (each_atomic fun r => .modifyChannel r c fun x => .step x .stop) (tearDown_lasting c)

/-- The channel that would be made next between two sessions. -/
def newChannel (src dst : SessionRef) (r : Relay) : Channel :=
  { id := r.nextChannelId
    config := r.config.channel
    src := r.bindEnd src r.socketsBound
    dst := r.bindEnd dst (r.socketsBound + 1)
    createdAt := r.now }

theorem fresh_newChannel (r : Relay) (src dst : SessionRef) :
    Channel.Fresh (r.newChannel src dst) :=
  ⟨rfl, fun side => by cases side <;> rfl, fun side => by cases side <;> rfl⟩

theorem openChannel_lasting (src dst : SessionRef) : (openChannel src dst).Each Lasting := by
  refine each_atomic fun r => ?_
  have happend (c : ChannelRef) : ((openChannel src dst).exec r).channel c =
      if c = r.channels.length then r.newChannel src dst else r.channel c :=
    channel_append r (r.newChannel src dst) c
  refine ⟨by simp [addChannel], fun c hc => ?_, fun c hle hlt => ?_⟩
  · have hold := (happend c).trans (if_neg (Nat.ne_of_lt hc))
    exact hold ▸ .refl _
  · have hlast : c = r.channels.length := by
      simp only [addChannel, List.length_append, List.length_singleton] at hlt
      exact Nat.le_antisymm (Nat.le_of_lt_succ hlt) hle
    have hnew := (happend c).trans (if_pos hlast)
    exact ⟨r.newChannel src dst, fresh_newChannel r src dst, hnew ▸ .refl _⟩

theorem createChannel_lasting (src : SessionRef) (id : SessionId) :
    (createChannel src id).Each Lasting :=
  composed_each.createChannel reserveSlot_lasting releaseSlot_lasting
    (fun dst _ => openChannel_lasting src dst) listChannel_lasting joinSessions_lasting
    forgetChannel_lasting stopChannel_lasting id

/-! ## Sessions and events -/

theorem discardChannel_lasting (c : ChannelRef) : (discardChannel c).Each Lasting :=
  composed_each.discardChannel forgetChannel_lasting stopChannel_lasting c

theorem stopChannels_lasting (s : SessionRef) : (stopChannels s).Each Lasting :=
  composed_each.stopChannels
    (fun s side => lasting_of_keepsChannels (takeChannels_keepsChannels s side))
    discardChannel_lasting stopChannel_lasting s

theorem stopSession_lasting (s : SessionRef) : (stopSession s).Each Lasting :=
  composed_each.stopSession (each_atomic fun _ => .of_channels_eq rfl)
    (each_modify fun _ => .of_channels_eq rfl) (stopChannels_lasting s)
    (lasting_of_sameChannels (dismiss_sameChannels s))
    (lasting_of_sameChannels (detach_sameChannels s))

theorem serveProxy_lasting (s : SessionRef) (header : Wire.Header) (destination : SessionId) :
    (serveProxy s header destination).Each Lasting :=
  composed_each.serveProxy (fun _ _ _ => lasting_of_sameChannels (push_sameChannels ..))
    createChannel_lasting (fun _ => lasting_of_sameChannels (startChannel_sameChannels _))
    s header destination

theorem serveFrame_lasting (s : SessionRef) (frame : Wire.Frame) :
    (serveFrame s frame).Each Lasting :=
  composed_each.serveFrame (fun _ _ _ _ => lasting_of_sameChannels (serveLogin_sameChannels ..))
    serveProxy_lasting (fun _ _ => lasting_of_sameChannels (servePeers_sameChannels ..))
    (fun _ _ => lasting_of_sameChannels (refuseMalformed_sameChannels ..)) s frame

theorem servePiece_lasting (s : SessionRef) (piece : Wire.Frame.Piece) :
    (servePiece s piece).Each Lasting := by
  cases piece with
  | frame frame => exact serveFrame_lasting s frame
  | skip => exact each_modify fun _ => .of_channels_eq rfl

theorem servePieces_lasting (s : SessionRef) (pieces : List Wire.Frame.Piece) :
    (servePieces s pieces).Each Lasting :=
  composed_each.servePieces (servePiece_lasting s) pieces

theorem event_lasting (e : Event) : e.op.Each Lasting := by
  have hquiet {α : Type} {p : Op α} (hp : p.Each SameChannels) : p.Each Lasting :=
    lasting_of_sameChannels hp
  have hreceive (s : SessionRef) (data : Bytes) : (receive s data).Each Lasting :=
    composed_each.receive (fun _ => each_modify fun _ => .of_channels_eq rfl)
      (serveFrame_lasting s) (each_modify fun _ => .of_channels_eq rfl) data
  exact composed_each.event stopChannel_lasting stopSession_lasting
    (fun c => hquiet (report_sameChannels c)) (fun _ => each_modify fun _ => .of_channels_eq rfl)
    (each_modify fun _ => .of_channels_eq rfl)
    (composed_each.arrival (hquiet reserveConnection_sameChannels)
      (fun _ _ _ _ => hquiet (startSession_sameChannels ..))
      (hquiet releaseConnection_sameChannels) (fun s data _ => hreceive s data)
      fun _ _ _ _ _ => hquiet (datagram_sameChannels ..))

/-- Channels last over every event. -/
theorem lasting_step (r : Relay) (e : Event) : Lasting r (r.step e) :=
  rel_exec_of_each (event_lasting e) r

theorem lasting_after (r : Relay) (events : List Event) : Lasting r (r.after events) := by
  induction events generalizing r with
  | nil => exact .refl r
  | cons e events ih => exact (lasting_step r e).trans (ih (r.step e))

/-- Every channel of a run that begins without any has run on from its making. -/
theorem exists_fresh_ran {r : Relay} (h : r.channels = []) (events : List Event)
    {c : ChannelRef} (hc : c < (r.after events).channels.length) :
    ∃ x, Channel.Fresh x ∧ x.Ran ((r.after events).channel c) :=
  (lasting_after r events).made c (by simp [h]) hc

end PeerRelay.Relay
