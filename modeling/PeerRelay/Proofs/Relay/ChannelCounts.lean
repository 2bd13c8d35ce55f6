import Mathlib.Algebra.GroupWithZero.Nat
import PeerRelay.Proofs.Relay.Connections
import PeerRelay.Proofs.Relay.Registration

/-!
# Channels are counted

A channel is counted when it is made and again when it is stopped, by whichever of all the
attempts to stop it comes first. So the metrics always tell how many channels are open and
how many are over, and the lifetime of each of the latter was observed once.
-/

namespace PeerRelay

open Steps

namespace Histogram

theorem total_eq (h : Histogram) : h.total = h.beyond + h.counts.sum := by
  unfold total
  generalize h.beyond = n
  induction h.counts generalizing n with
  | nil => rfl
  | cons m counts ih => rw [List.foldl_cons, ih, List.sum_cons, Nat.add_assoc]

theorem sum_place {nanoseconds : Nat} {bounds counts counts' : List Nat}
    (h : place nanoseconds bounds counts = some counts') : counts'.sum = counts.sum + 1 := by
  induction bounds generalizing counts counts' with
  | nil => cases h
  | cons bound bounds ih =>
      cases counts with
      | nil => cases h
      | cons n counts =>
          unfold place at h
          split at h
          · cases h
            rw [List.sum_cons, List.sum_cons, Nat.add_right_comm]
          · obtain ⟨rest, hrest, rfl⟩ := Option.map_eq_some_iff.mp h
            rw [List.sum_cons, List.sum_cons, ih hrest, Nat.add_assoc]

/-- A time that is observed is one more, wherever it falls. -/
theorem total_observe (nanoseconds : Nat) (h : Histogram) :
    (h.observe nanoseconds).total = h.total + 1 := by
  simp only [total_eq, observe]
  split
  · rename_i counts hplace
    rw [sum_place hplace, Nat.add_assoc]
  · exact Nat.add_right_comm ..

end Histogram

namespace Relay

variable {r r' r'' : Relay}

/-! ## Channels -/

theorem countP_modify {α : Type} {xs : List α} {n : Nat} (h : n < xs.length) (f : α → α)
    (p : α → Bool) : (xs.modify n f).countP p + (if p xs[n] then 1 else 0) =
      xs.countP p + if p (f xs[n]) then 1 else 0 := by
  have hsplit : xs.countP p = (xs.take n).countP p + (xs[n] :: xs.drop (n + 1)).countP p := by
    rw [← List.drop_eq_getElem_cons h, ← List.countP_append, List.take_append_drop]
  rw [List.modify_eq_take_cons_drop h, List.countP_append, hsplit, List.countP_cons,
    List.countP_cons]
  omega

/-- Which channels are over, and what is counted of that, are what they were. -/
structure SameBooks (r r' : Relay) : Prop where
  stopped : r'.channels.map Channel.stopped = r.channels.map Channel.stopped
  active : r'.metrics.activeChannels = r.metrics.activeChannels
  lifetimes : r'.metrics.lifetimes = r.metrics.lifetimes
  counted : r'.metrics.channels = r.metrics.channels

namespace SameBooks

theorem refl (r : Relay) : SameBooks r r := ⟨rfl, rfl, rfl, rfl⟩

theorem trans (h : SameBooks r r') (h' : SameBooks r' r'') : SameBooks r r'' where
  stopped := h'.stopped.trans h.stopped
  active := h'.active.trans h.active
  lifetimes := h'.lifetimes.trans h.lifetimes
  counted := h'.counted.trans h.counted

instance : Std.Refl SameBooks := ⟨refl⟩

instance : Trans SameBooks SameBooks SameBooks := ⟨trans⟩

theorem of_uncounted (h : Uncounted r r') : SameBooks r r' where
  stopped := by
    have hsnd := congrArg (List.map Prod.snd) h.channels
    rw [List.map_map, List.map_map] at hsnd
    exact hsnd
  active := by rw [h.metrics]
  lifetimes := by rw [h.metrics]
  counted := by rw [h.metrics]

end SameBooks

/-- The metrics tell how many channels there are, and how many of them are over. -/
structure ChannelsCounted (r : Relay) : Prop where
  active : r.metrics.activeChannels = r.channels.countP fun c => !c.stopped
  lifetimes : r.metrics.lifetimes.total = r.channels.countP fun c => c.stopped
  counted : r.metrics.channels = UInt64.ofNat r.channels.length

namespace ChannelsCounted

theorem sameBooks (h : ChannelsCounted r) (hs : SameBooks r r') : ChannelsCounted r' := by
  have hcount (p : Bool → Bool) :
      r'.channels.countP (fun c => p c.stopped) = r.channels.countP fun c => p c.stopped := by
    have hmap := congrArg (List.countP p) hs.stopped
    rw [List.countP_map, List.countP_map] at hmap
    exact hmap
  have hlength : r'.channels.length = r.channels.length := by
    simpa only [List.length_map] using congrArg List.length hs.stopped
  refine ⟨?_, ?_, ?_⟩
  · rw [hs.active, h.active, hcount (! ·)]
  · rw [hs.lifetimes, h.lifetimes]
    exact (hcount id).symm
  · rw [hs.counted, h.counted, hlength]

theorem openChannel (h : ChannelsCounted r) (src dst : SessionRef) :
    ChannelsCounted ((openChannel src dst).exec r) := by
  change ChannelsCounted { addChannel r.nextChannelId src dst r with
    nextChannelId := r.nextChannelId + 1 }
  refine ⟨?_, ?_, ?_⟩
  · simp only [addChannel, Metrics.channelOpened, List.countP_append, List.countP_singleton,
      Bool.not_false, if_true, Int.natCast_add, h.active]
    rfl
  · simp only [addChannel, Metrics.channelOpened, List.countP_append, List.countP_singleton,
      Bool.false_eq_true, if_false, Nat.add_zero, h.lifetimes]
  · simp only [addChannel, Metrics.channelOpened, List.length_append, List.length_singleton,
      UInt64.ofNat_add, h.counted]
    rfl

/-- Of the attempts to stop a channel the first takes it from the open channels to those that
are over, and no other counts anything. -/
theorem stopChannel (h : ChannelsCounted r) (c : ChannelRef) :
    ChannelsCounted ((stopChannel c).exec r) := by
  cases hover : (r.channel c).stopped with
  | true =>
      rw [exec_stopChannel_of_stopped hover]
      exact h.sameBooks ⟨map_modify_of_eq .vacant hover.symm, rfl, rfl, rfl⟩
  | false =>
      have hc := lt_of_stopped_eq_false hover
      have hget : r.channels[c].stopped = false := by
        rwa [channel, List.getD_eq_getElem _ _ hc] at hover
      have hopen := countP_modify hc Channel.halt fun x => !x.stopped
      have hclosed := countP_modify hc Channel.halt fun x => x.stopped
      simp only [hget, Channel.halt, Bool.not_false, Bool.not_true, Bool.false_eq_true, if_true,
        if_false] at hopen hclosed
      rw [exec_stopChannel hover]
      have hquiet : SameBooks (r.halted c) ((retireChannel c).exec
          ((closeEnd (r.channel c).id .dst (r.channel c).halt.dst).exec
            ((closeEnd (r.channel c).id .src (r.channel c).halt.src).exec (r.halted c)))) :=
        .of_uncounted (((rel_exec_of_each (closeEnd_uncounted ..) _).trans
          (rel_exec_of_each (closeEnd_uncounted ..) _)).trans
          (rel_exec_of_each (retireChannel_uncounted c) _))
      -- What is left is a channel that is over and not counted as such yet.
      generalize (retireChannel c).exec _ = r₁ at hquiet ⊢
      have hbooks : ChannelsCounted ((r.halted c).count fun m =>
          m.channelClosed (r₁.now - (r₁.channel c).createdAt)) := by
        refine ⟨?_, ?_, ?_⟩
        · change r.metrics.activeChannels - 1 = ((r.halted c).channels.countP _ : Nat)
          rw [h.active]
          change _ = (((r.channels.modify c Channel.halt).countP _ : Nat) : Int)
          omega
        · change (r.metrics.lifetimes.observe _).total = (r.channels.modify c Channel.halt).countP _
          rw [Histogram.total_observe, h.lifetimes]
          omega
        · change r.metrics.channels = UInt64.ofNat (r.channels.modify c Channel.halt).length
          rw [h.counted, List.length_modify]
      refine hbooks.sameBooks ⟨hquiet.stopped, ?_, ?_, hquiet.counted⟩
      · exact congrArg (· - 1) hquiet.active
      · exact congrArg (Histogram.observe _) hquiet.lifetimes

theorem counting : Counting fun _ p => ∀ r, ChannelsCounted r → ChannelsCounted (p.exec r) where
  quiet h r hr := hr.sameBooks (.of_uncounted (rel_exec_of_each h r))
  bind hp hf r hr := by
    rw [exec_bind]
    exact hf _ _ (hp r hr)

theorem step (h : ChannelsCounted r) (e : Event) : ChannelsCounted (r.step e) := by
  have hcount (f : Metrics → Metrics) (hf : ∀ m : Metrics,
      (f m).activeChannels = m.activeChannels ∧ (f m).lifetimes = m.lifetimes ∧
        (f m).channels = m.channels) (r : Relay) (hr : ChannelsCounted r) :
      ChannelsCounted (r.count f) :=
    hr.sameBooks ⟨rfl, (hf _).1, (hf _).2.1, (hf _).2.2⟩
  have hstop (c : ChannelRef) (r : Relay) (hr : ChannelsCounted r) := hr.stopChannel c
  have hdetach (s : SessionRef) (r : Relay) (hr : ChannelsCounted r) :
      ChannelsCounted ((detach s).exec r) := by
    rw [exec_detach]
    split
    · exact hr.sameBooks ⟨rfl, rfl, rfl, rfl⟩
    · exact hr
  have hreserve (r : Relay) (hr : ChannelsCounted r) :
      ChannelsCounted (reserveConnection.exec r) := by
    rw [exec, run_reserveConnection]
    dsimp only
    split
    · exact hr.sameBooks ⟨rfl, rfl, rfl, rfl⟩
    · exact hcount Metrics.connectionRejected (fun _ => ⟨rfl, rfl, rfl⟩) r hr
  have hstart (role : Role) (peer localAddr : SocketAddr) (held : Bool) (r : Relay)
      (hr : ChannelsCounted r) : ChannelsCounted ((startSession role peer localAddr held).exec r) :=
    hr.sameBooks ⟨rfl, rfl, rfl, rfl⟩
  have hreceive (s : SessionRef) (data : Bytes) (r : Relay) (hr : ChannelsCounted r) :
      ChannelsCounted ((receive s data).exec r) :=
    counting.receive
      (counting.serveFrame
        (counting.serveLogin (hcount Metrics.loginSucceeded fun _ => ⟨rfl, rfl, rfl⟩)
          (hcount Metrics.loginRefused fun _ => ⟨rfl, rfl, rfl⟩))
        (counting.serveProxy
          (counting.createChannel (fun src dst r hr => hr.openChannel src dst) hstop)))
      (hcount Metrics.resynced fun _ => ⟨rfl, rfl, rfl⟩)
      (fun s unread r hr => hr.sameBooks ⟨rfl, rfl, rfl, rfl⟩) s data r hr
  have hdatagram (c : ChannelRef) (side : Side) (sender : SocketAddr) (data : Bytes) (r : Relay)
      (hr : ChannelsCounted r) : ChannelsCounted ((datagram c side sender data).exec r) := by
    have hkept := (Channel.receive_keeps (r.channel c) side r.now sender data).2
    have hcounted : ChannelsCounted
        ((r.modifyChannel c fun _ => ((r.channel c).receive side r.now sender data).1).count
          (countOutcome side ((r.channel c).receive side r.now sender data).2)) := by
      refine hcount _ (fun m => ?_) _
        (hr.sameBooks ⟨map_modify_of_eq .vacant hkept, rfl, rfl, rfl⟩)
      cases ((r.channel c).receive side r.now sender data).2 <;> cases side <;>
        exact ⟨rfl, rfl, rfl⟩
    exact ⟨hcounted.active, hcounted.lifetimes, hcounted.counted⟩
  exact counting.event hstop
    (counting.stopSession (fun s r hr => hr.sameBooks ⟨rfl, rfl, rfl, rfl⟩) hstop hdetach)
    (counting.composed.arrival hreserve hstart (fun r hr => hr.sameBooks ⟨rfl, rfl, rfl, rfl⟩)
      (fun s data _ => hreceive s data) fun c side sender data _ => hdatagram c side sender data)
    r h

theorem after (h : ChannelsCounted r) (events : List Event) :
    ChannelsCounted (r.after events) := by
  induction events generalizing r with
  | nil => exact h
  | cons e events ih => exact ih (h.step e)

end ChannelsCounted

end Relay

end PeerRelay
