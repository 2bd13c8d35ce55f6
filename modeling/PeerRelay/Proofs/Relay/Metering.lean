import PeerRelay.Proofs.Channel.Terms
import PeerRelay.Proofs.Relay.Calls
import PeerRelay.Proofs.Relay.Counting

/-!
# What datagrams do to the counters

A datagram that an end passes on is counted with its channel and with the relay, in the
direction in which it goes. One that an open end refuses is counted with the relay only. No
other datagram is counted at all, and nothing but datagrams changes these counters.
-/

namespace PeerRelay

open Steps

/-! ## Directions -/

namespace Traffic

/-- The bytes in the direction in which the end on a side sends. -/
def bytesFrom (t : Traffic) : Side → UInt64
  | .src => t.upBytes
  | .dst => t.downBytes

/-- The datagrams in the direction in which the end on a side sends. -/
def packetsFrom (t : Traffic) : Side → UInt64
  | .src => t.upPackets
  | .dst => t.downPackets

/-- The counters after another datagram in a direction. -/
def counted (t : Traffic) (side : Side) (bytes : Nat) : Traffic :=
  match side with
  | .src => { t with
      upBytes := t.upBytes + UInt64.ofNat bytes
      upPackets := t.upPackets + 1 }
  | .dst => { t with
      downBytes := t.downBytes + UInt64.ofNat bytes
      downPackets := t.downPackets + 1 }

theorem bytesFrom_counted (t : Traffic) (side s : Side) (bytes : Nat) :
    (t.counted side bytes).bytesFrom s =
      t.bytesFrom s + UInt64.ofNat (if side = s then bytes else 0) := by
  cases side <;> cases s <;> simp [counted, bytesFrom]

theorem packetsFrom_counted (t : Traffic) (side s : Side) (bytes : Nat) :
    (t.counted side bytes).packetsFrom s =
      t.packetsFrom s + UInt64.ofNat (if side = s then 1 else 0) := by
  cases side <;> cases s <;> simp [counted, packetsFrom]

/-- Bytes and datagrams in the direction in which the end on a side sends. -/
def flow (t : Traffic) (side : Side) : UInt64 × UInt64 := (t.bytesFrom side, t.packetsFrom side)

end Traffic

/-- What a relay has counted over all channels. -/
def Metrics.relayed (m : Metrics) : Traffic :=
  ⟨m.uploadBytes, m.uploadPackets, m.downloadBytes, m.downloadPackets⟩

/-! ## One datagram -/

namespace Channel

/-- Whether an end passes a datagram on: one that its peer has sent, that is more than a sign
of life, and that the other end is open for and still has a socket for. -/
def passes (c : Channel) (side : Side) (sender : SocketAddr) (data : Bytes) : Bool :=
  decide ((c.endpoint side).loop = .relaying) && decide (sender.ip = (c.endpoint side).remote.ip) &&
    decide (2 < data.length) && (c.endpoint side.other).opened &&
    (c.endpoint side.other).socketHeld

/-- Whether an open end refuses a datagram: one from elsewhere, however long it is, or one that
is more than a sign of life while the other end is not open. -/
def refuses (c : Channel) (side : Side) (sender : SocketAddr) (data : Bytes) : Bool :=
  decide ((c.endpoint side).loop = .relaying) &&
    (decide (sender.ip ≠ (c.endpoint side).remote.ip) ||
      decide (2 < data.length) && !(c.endpoint side.other).opened)

/-- What a datagram at an end can leave the counters of the channel at, with what becomes of
it. -/
inductive Metered (c : Channel) (side : Side) (sender : SocketAddr) (data : Bytes) :
    Traffic → Outcome → Prop where
  | passed (target : SocketAddr) (h : c.passes side sender data = true) :
      Metered c side sender data (c.traffic.counted side data.length) (.forwarded target data)
  | refused (h : c.refuses side sender data = true) : Metered c side sender data c.traffic .dropped
  | uncounted (hpasses : c.passes side sender data = false)
      (hrefuses : c.refuses side sender data = false) {outcome : Outcome}
      (houtcome : outcome = .ignored ∨ ∃ reply, outcome = .echoed reply) :
      Metered c side sender data c.traffic outcome

/-- What an end passes on it does not refuse. -/
theorem refuses_of_passes (c : Channel) (side : Side) (sender : SocketAddr) (data : Bytes)
    (h : c.passes side sender data = true) : c.refuses side sender data = false := by
  simp only [passes, refuses, Bool.and_eq_true, decide_eq_true_eq] at h ⊢
  obtain ⟨⟨⟨⟨hloop, hip⟩, -⟩, hopen⟩, -⟩ := h
  simp [hip, hopen]

@[simp] theorem traffic_modify (c : Channel) (side : Side) (f : Endpoint → Endpoint) :
    (c.modify side f).traffic = c.traffic := by
  cases side <;> rfl

@[simp] theorem traffic_touch (c : Channel) (side : Side) (now : Nat) :
    (c.touch side now).traffic = c.traffic := traffic_modify ..

theorem traffic_count (c : Channel) (side : Side) (bytes : Nat) :
    (c.count side bytes).traffic = c.traffic.counted side bytes := by
  cases side <;> rfl

variable {c : Channel} {side : Side}

theorem uncounted_of_loop {sender : SocketAddr} {data : Bytes}
    (h : (c.endpoint side).loop ≠ .relaying) {outcome : Outcome}
    (houtcome : outcome = .ignored ∨ ∃ reply, outcome = .echoed reply) :
    Metered c side sender data c.traffic outcome :=
  .uncounted (by simp [passes, h]) (by simp [refuses, h]) houtcome

theorem metered_authenticate (now : Nat) (sender : SocketAddr) (data : Bytes)
    (hloop : (c.endpoint side).loop = .authenticating) :
    Metered c side sender data (c.authenticate side now sender data).1.traffic
      (c.authenticate side now sender data).2 := by
  have hne : (c.endpoint side).loop ≠ .relaying := by
    rw [hloop]
    exact nofun
  unfold authenticate
  dsimp only
  split
  · rw [traffic_touch]
    exact uncounted_of_loop hne (.inl rfl)
  · split
    · rw [traffic_modify, traffic_touch]
      exact uncounted_of_loop hne (.inr ⟨_, rfl⟩)
    · rw [traffic_touch]
      exact uncounted_of_loop hne (.inr ⟨_, rfl⟩)

theorem metered_relay (now : Nat) (sender : SocketAddr) (data : Bytes)
    (hloop : (c.endpoint side).loop = .relaying) :
    Metered c side sender data (c.relay side now sender data).1.traffic
      (c.relay side now sender data).2 := by
  have hpeer : ((c.modify side fun e => { e with remote := sender }).touch side now).endpoint
      side.other = c.endpoint side.other := by
    rw [touch, endpoint_modify_other, endpoint_modify_other]
  have htraffic : ((c.modify side fun e => { e with remote := sender }).touch side now).traffic =
      c.traffic := by
    rw [traffic_touch, traffic_modify]
  unfold relay
  dsimp only
  rw [hpeer]
  split
  · rename_i hip
    exact .refused (by simp [refuses, hloop, hip])
  · rename_i hip
    have hip := Decidable.not_not.mp hip
    split
    · rename_i hshort
      have hshort : ¬ 2 < data.length := Nat.not_lt_of_le hshort
      rw [htraffic]
      exact .uncounted (by simp [passes, hshort]) (by simp [refuses, hip, hshort]) (.inl rfl)
    · rename_i hlong
      have hlong : 2 < data.length := Nat.lt_of_not_le hlong
      split
      · rename_i hclosed
        rw [Bool.not_eq_true'] at hclosed
        rw [htraffic]
        exact .refused (by simp [refuses, hloop, hlong, hclosed])
      · rename_i hopen
        rw [Bool.not_eq_true', Bool.not_eq_false] at hopen
        split
        · rename_i hgone
          rw [Bool.not_eq_true'] at hgone
          rw [traffic_modify, htraffic]
          exact .uncounted (by simp [passes, hgone]) (by simp [refuses, hip, hopen]) (.inl rfl)
        · rename_i hheld
          rw [Bool.not_eq_true', Bool.not_eq_false] at hheld
          rw [traffic_count, htraffic]
          exact .passed _ (by simp [passes, hloop, hip, hlong, hopen, hheld])

theorem metered_receive (c : Channel) (side : Side) (now : Nat) (sender : SocketAddr)
    (data : Bytes) :
    Metered c side sender (data.take c.config.mtu) (c.receive side now sender data).1.traffic
      (c.receive side now sender data).2 := by
  unfold receive
  dsimp only
  split
  · rename_i hloop
    rw [traffic_modify]
    exact uncounted_of_loop (by rw [hloop]; exact nofun) (.inl rfl)
  · exact metered_authenticate now sender _ ‹_›
  · exact metered_relay now sender _ ‹_›
  · rename_i hloop
    exact uncounted_of_loop (by rw [hloop]; exact nofun) (.inl rfl)

end Channel

namespace Relay

variable {r r' r'' : Relay}

theorem relayed_countOutcome (side : Side) (outcome : Channel.Outcome) (m : Metrics) :
    (countOutcome side outcome m).relayed =
      match outcome with
      | .forwarded _ data => m.relayed.counted side data.length
      | _ => m.relayed := by
  cases outcome <;> cases side <;> rfl

theorem dropped_countOutcome (side : Side) (outcome : Channel.Outcome) (m : Metrics) :
    (countOutcome side outcome m).dropped =
      match outcome with
      | .dropped => m.dropped + 1
      | _ => m.dropped := by
  cases outcome <;> cases side <;> rfl

/-! ## Everything else -/

/-- No channel is gone, and what is counted of datagrams is what it was. -/
structure Unmetered (r r' : Relay) : Prop where
  length : r.channels.length ≤ r'.channels.length
  traffic : ∀ c, (r'.channel c).traffic = (r.channel c).traffic
  relayed : r'.metrics.relayed = r.metrics.relayed
  dropped : r'.metrics.dropped = r.metrics.dropped

namespace Unmetered

theorem refl (r : Relay) : Unmetered r r := ⟨Nat.le_refl _, fun _ => rfl, rfl, rfl⟩

theorem trans (h : Unmetered r r') (h' : Unmetered r' r'') : Unmetered r r'' where
  length := Nat.le_trans h.length h'.length
  traffic c := (h'.traffic c).trans (h.traffic c)
  relayed := h'.relayed.trans h.relayed
  dropped := h'.dropped.trans h.dropped

instance : Std.Refl Unmetered := ⟨refl⟩

instance : Trans Unmetered Unmetered Unmetered := ⟨trans⟩

theorem of_uncounted (h : Uncounted r r') : Unmetered r r' where
  length := by
    have hlength := congrArg List.length h.channels
    rw [List.length_map, List.length_map] at hlength
    exact Nat.le_of_eq hlength.symm
  traffic c := congrArg Prod.fst (h.channel_account c)
  relayed := by rw [h.metrics]
  dropped := by rw [h.metrics]

/-- What leaves the channels alone and counts something else. -/
theorem of_eq (hchannels : r'.channels = r.channels)
    (hrelayed : r'.metrics.relayed = r.metrics.relayed)
    (hdropped : r'.metrics.dropped = r.metrics.dropped) : Unmetered r r' where
  length := Nat.le_of_eq (congrArg List.length hchannels.symm)
  traffic c := by rw [channel, channel, hchannels]
  relayed := hrelayed
  dropped := hdropped

theorem counting : Counting fun _ p => p.Each Unmetered where
  quiet h := h.mono fun _ _ => .of_uncounted
  bind := each_bind

end Unmetered

theorem claimStop_unmetered (c : ChannelRef) : (claimStop c).Each Unmetered := by
  refine each_atomic fun r => ⟨Nat.le_of_eq (List.length_modify ..).symm, fun d => ?_, rfl, rfl⟩
  exact channel_modifyChannel_congr Channel.traffic rfl d

theorem stopChannel_unmetered (c : ChannelRef) : (stopChannel c).Each Unmetered :=
  Unmetered.counting.stopChannel claimStop_unmetered
    (fun _ => each_modify fun _ => .of_eq rfl rfl rfl) c

theorem detach_unmetered (s : SessionRef) : (detach s).Each Unmetered :=
  composed_each.detach (each_atomic fun _ => .of_eq rfl rfl rfl)
    (each_modify fun _ => .of_eq rfl rfl rfl) (each_modify fun _ => .of_eq rfl rfl rfl)

theorem stopSession_unmetered (s : SessionRef) : (stopSession s).Each Unmetered :=
  Unmetered.counting.stopSession (fun _ => each_atomic fun _ => .of_eq rfl rfl rfl)
    stopChannel_unmetered detach_unmetered s

/-- A channel that is made has relayed nothing yet. -/
theorem openChannel_unmetered (src dst : SessionRef) : (openChannel src dst).Each Unmetered := by
  refine each_atomic fun r => ⟨?_, fun c => ?_, rfl, rfl⟩
  · change r.channels.length ≤ (r.channels ++ [_]).length
    rw [List.length_append]
    exact Nat.le_add_right ..
  · change ((r.channels ++ [_]).getD c .vacant).traffic = _
    rw [getD_append_singleton]
    split
    · rename_i hc
      rw [channel_of_le (Nat.le_of_eq hc.symm)]
      rfl
    · rfl

theorem createChannel_unmetered (src : SessionRef) (id : SessionId) :
    (createChannel src id).Each Unmetered :=
  Unmetered.counting.createChannel openChannel_unmetered stopChannel_unmetered src id

theorem receive_unmetered (s : SessionRef) (data : Bytes) : (receive s data).Each Unmetered := by
  refine Unmetered.counting.receive
    (Unmetered.counting.serveFrame
      (Unmetered.counting.serveLogin (each_modify fun _ => .of_eq rfl rfl rfl)
        (each_modify fun _ => .of_eq rfl rfl rfl))
      (Unmetered.counting.serveProxy createChannel_unmetered))
    (each_modify fun _ => .of_eq rfl rfl rfl)
    (fun _ _ => each_modify fun _ => .of_eq rfl rfl rfl) s data

/-- Whether a call brings a datagram to an end of a channel. -/
def Call.IsDatagram : Call → Prop
  | event (.datagram ..) => True
  | _ => False

/-- Whatever a relay is asked to do, nothing but a datagram is counted. -/
theorem Call.unmetered {call : Call} (h : ¬ call.IsDatagram) : call.op.Each Unmetered := by
  have hreserve : reserveConnection.Each Unmetered := by
    refine each_atomic fun r => ?_
    split <;> exact .of_eq rfl rfl rfl
  refine composed_each.call (fun e he => ?_) createChannel_unmetered stopChannel_unmetered
  refine Unmetered.counting.event stopChannel_unmetered stopSession_unmetered
    (composed_each.arrival hreserve (fun _ _ _ _ => each_atomic fun _ => .of_eq rfl rfl rfl)
      (each_modify fun _ => .of_eq rfl rfl rfl) (fun s data _ => receive_unmetered s data)
      fun c side sender data hdatagram => ?_)
  exact absurd (by rw [he, hdatagram]; trivial) h

end Relay

end PeerRelay
