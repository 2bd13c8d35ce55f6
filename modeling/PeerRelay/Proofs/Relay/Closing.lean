import PeerRelay.Proofs.Relay.Lifecycles
import PeerRelay.Proofs.Relay.RegistrationRuns

/-!
# Closing by id

Who closes a session by its id ends the one session that is logged in under it, with the
channels that have an end there. Who closes a channel by its id stops the one channel that is
listed under it. Nobody else is touched, and an id that nobody has closes nothing.
-/

namespace PeerRelay.Relay

open Steps

variable {r r' : Relay} {s : SessionRef} {c d : ChannelRef} {id : UInt32}

/-! ## Which channels are over -/

/-- Stopping a channel stops that channel, however it was found. -/
theorem stopped_stopChannel_iff (r : Relay) (c d : ChannelRef) :
    (((stopChannel c).exec r).channel d).stopped = true ↔
      d = c ∨ (r.channel d).stopped = true := by
  cases hc : (r.channel c).stopped with
  | true =>
      rw [(stopChannel_of_stopped hc).stopped]
      refine ⟨.inr, ?_⟩
      rintro (rfl | hd)
      · exact hc
      · exact hd
  | false =>
      have hquiet (r : Relay) (side : Side) (id : ChannelId) (e : Channel.Endpoint) :
          (((closeEnd id side e).exec r).channel d).stopped = (r.channel d).stopped := by
        have haccount := (rel_exec_of_each (closeEnd_uncounted id side e) r).channel_account d
        exact congrArg Prod.snd haccount
      rw [exec_stopChannel hc, (rel_exec_of_each (countClosed_sameChannels c) _).stopped,
        (rel_exec_of_each (retireChannel_sameChannels c) _).stopped, hquiet, hquiet,
        stopped_halted (lt_of_stopped_eq_false hc)]

theorem stopped_discardChannel (r : Relay) (c d : ChannelRef) :
    (((discardChannel c).exec r).channel d).stopped = true ↔
      d = c ∨ (r.channel d).stopped = true := by
  rw [exec_discardChannel, stopped_stopChannel_iff]
  rfl

/-- A loop that stops channels stops those that it is given. -/
theorem stopped_forM {f : ChannelRef → Op Unit}
    (hf : ∀ r c d, (((f c).exec r).channel d).stopped = true ↔
      d = c ∨ (r.channel d).stopped = true) (cs : List ChannelRef) (r : Relay) :
    (((cs.forM f).exec r).channel d).stopped = true ↔
      d ∈ cs ∨ (r.channel d).stopped = true := by
  induction cs generalizing r with
  | nil => exact (or_iff_right List.not_mem_nil).symm
  | cons c cs ih => rw [exec_forM_cons, ih, hf, List.mem_cons, ← or_assoc, or_comm (a := d ∈ cs)]

/-- A session that has the channels of one side stopped stops those with that end there. -/
theorem Registered.stopped_endSide {f : ChannelRef → Op Unit} {side : Side}
    (h : Registered r Complete) (hs : s < r.sessions.length)
    (hf : ∀ r c d, (((f c).exec r).channel d).stopped = true ↔
      d = c ∨ (r.channel d).stopped = true) :
    (((do (← takeChannels s side).forM f : Op Unit).exec r).channel d).stopped = true ↔
      (r.channel d).stopped = true ∨ (r.channel d).terms.session side = s := by
  have hentries : d ∈ r.channelsOn s side ↔
      (r.channel d).stopped = false ∧ (r.channel d).terms.session side = s := by
    rw [mem_channelsOn_iff]
    constructor
    · rintro ⟨id, hid⟩
      obtain ⟨ho, -, hsession, -⟩ := (h.entries_get s side id d).mp hid
      exact ⟨ho, hsession⟩
    · rintro ⟨ho, hsession⟩
      exact ⟨_, (h.entries_get s side _ d).mpr ⟨ho, rfl, hsession, not_false⟩⟩
  have hkept : ((r.withEntries s side .empty).channel d).stopped = (r.channel d).stopped := rfl
  rw [exec_endSide hs, stopped_forM hf, hentries, hkept]
  cases (r.channel d).stopped <;> simp

/-- A session that has its channels stopped stops those with an end there, and no other. -/
theorem Registered.stopped_stopChannels (h : Registered r Complete)
    (hn : r.channels.length < 2 ^ 32 - 1) (hs : s < r.sessions.length) :
    (((Relay.stopChannels s).exec r).channel d).stopped = true ↔
      (r.channel d).stopped = true ∨ ∃ side, (r.channel d).terms.session side = s := by
  generalize hr₁ : (do (← takeChannels s .src).forM Relay.discardChannel : Op Unit).exec r = r₁
  have hsrc : (r₁.channel d).stopped = true ↔
      (r.channel d).stopped = true ∨ (r.channel d).terms.session .src = s := by
    rw [← hr₁]
    exact h.stopped_endSide hs stopped_discardChannel
  have hregistered : Registered r₁ Complete :=
    (h.endSide hn hs (fun c r h hn => h.discardChannel hn) discardChannel_lasting hr₁).1
  have hs₁ : s < r₁.sessions.length := by
    have hsame := rel_exec_of_each (each_bind (takeChannels_sameLogins s .src)
      fun cs => each_forM discardChannel_sameLogins cs) r
    rw [hr₁] at hsame
    rwa [hsame.length]
  have hterms : (r.channel d).stopped = false → (r₁.channel d).terms = (r.channel d).terms := by
    intro hopen
    have htake : (takeChannels s .src).Each Lasting :=
      each_takeChannels fun _ _ => .of_channels_eq rfl
    have hlast : Lasting r r₁ := by
      rw [← hr₁]
      exact rel_exec_of_each (each_bind htake fun cs => each_forM discardChannel_lasting cs) r
    exact hlast.terms d (lt_of_stopped_eq_false hopen)
  rw [exec_stopChannels, hr₁, hregistered.stopped_endSide hs₁ stopped_stopChannel_iff, hsrc]
  cases hd : (r.channel d).stopped with
  | true => simp
  | false =>
      rw [hterms hd]
      constructor
      · rintro ((hnone | hsession) | hsession)
        · cases hnone
        · exact .inr ⟨.src, hsession⟩
        · exact .inr ⟨.dst, hsession⟩
      · rintro (hnone | ⟨side, hsession⟩)
        · cases hnone
        · cases side
          · exact .inl (.inr hsession)
          · exact .inr hsession

/-- A session that ends stops the channels with an end there, and no other. -/
theorem Sound.stopped_stopSession (h : Sound r) (hn : r.channels.length < 2 ^ 32 - 1)
    (hrun : (r.session s).running = true) :
    (((Relay.stopSession s).exec r).channel d).stopped = true ↔
      (r.channel d).stopped = true ∨ ∃ side, ((r.channel d).endpoint side).session = s := by
  have hmark := marked_sameChannels r s
  have hs : s < (r.marked s).sessions.length := by
    rw [length_marked]
    exact lt_of_running hrun
  have hregistered := (h.ordered hn).registered.sameChannels hmark
  have hn' : (r.marked s).channels.length < 2 ^ 32 - 1 := hmark.length.symm ▸ hn
  rw [stopSession_of_running hrun, (rel_exec_of_each (detach_sameChannels s) _).stopped,
    (rel_exec_of_each (dismiss_sameChannels s) _).stopped,
    hregistered.stopped_stopChannels hn' hs, hmark.stopped, hmark.terms]
  rfl

/-! ## Closing a session -/

/-- A session has ended, and nothing but what hangs on it. -/
structure SessionEnded (s : SessionRef) (r r' : Relay) : Prop where
  eq : r' = (stopSession s).exec r
  running : ∀ t, (r'.session t).running = true ↔ (r.session t).running = true ∧ t ≠ s
  loggedIn : ∀ t, (r'.session t).loggedIn = true ↔ (r.session t).loggedIn = true ∧ t ≠ s
  /-- The channels that it had an end of are over, and no other that was not, unless the
  channel ids have run out. -/
  stopped : r.channels.length < 2 ^ 32 - 1 → ∀ c, (r'.channel c).stopped = true ↔
    (r.channel c).stopped = true ∨ ∃ side, ((r.channel c).endpoint side).session = s

theorem Sound.sessionEnded (h : Sound r) (hrun : (r.session s).running = true) :
    SessionEnded s r ((Relay.stopSession s).exec r) where
  eq := rfl
  running := running_stopSession r s
  loggedIn := loggedIn_stopSession h.settled s
  stopped hn _ := h.stopped_stopSession hn hrun

/-- What closing a session by an id does and tells. -/
inductive SessionClosing (id : SessionId) (r : Relay) : Bool × Relay → Prop where
  /-- No session is logged in under the id. -/
  | missing (hnone : ∀ s, (r.session s).loggedIn = true → (r.session s).id ≠ id) :
      SessionClosing id r (false, r)
  /-- One session is, and no other as long as the session ids have not come round. -/
  | closed {r' : Relay} (s : SessionRef) (hin : (r.session s).loggedIn = true)
      (hid : (r.session s).id = id) (hrun : (r.session s).running = true)
      (honly : r.issued.length < 2 ^ 32 - 1000 → ∀ t, (r.session t).loggedIn = true →
        (r.session t).id = id → t = s)
      (hended : SessionEnded s r r') : SessionClosing id r (true, r')

theorem run_closeSession (r : Relay) (id : SessionId) :
    (closeSession id).run r =
      match r.liveSessions.find? (fun s => (r.session s).loggedIn && (r.session s).id == id) with
      | none => (false, r)
      | some s => (true, (stopSession s).exec r) := by
  simp only [closeSession, run_bind, run_read]
  cases r.liveSessions.find? fun s => (r.session s).loggedIn && (r.session s).id == id with
  | none => rfl
  | some s =>
      rw [run_bind, run_pure]
      rfl

theorem Sound.closeSession (h : Sound r) (hattached : Attached r) (id : SessionId) :
    SessionClosing id r ((Relay.closeSession id).run r) := by
  rw [run_closeSession]
  cases hfind : r.liveSessions.find? fun s => (r.session s).loggedIn && (r.session s).id == id with
  | none =>
      refine .missing fun s hin hid => ?_
      -- A session that is logged in runs, so it would have been found among the live ones.
      have hlive := (r.config.sessionListing.mem_keys).mpr
        ((hattached.live s).mpr (h.settled.running hin))
      have hskipped := List.find?_eq_none.mp hfind s hlive
      simp [hin, hid] at hskipped
  | some s =>
      have hfound := List.find?_some hfind
      simp only [Bool.and_eq_true, beq_iff_eq] at hfound
      obtain ⟨hin, hid⟩ := hfound
      have hrun := h.settled.running hin
      refine .closed s hin hid hrun (fun hn t ht htid => ?_) (h.sessionEnded hrun)
      exact (h.settled.exclusive hn).id_unique t s ht hin (htid.trans hid.symm)

/-! ## Closing a channel -/

/-- A channel has been stopped, and nothing else. -/
structure ChannelEnded (c : ChannelRef) (r r' : Relay) : Prop where
  eq : r' = (stopChannel c).exec r
  stopped : ∀ d, (r'.channel d).stopped = true ↔ d = c ∨ (r.channel d).stopped = true
  running : ∀ s, (r'.session s).running = (r.session s).running
  loggedIn : ∀ s, (r'.session s).loggedIn = (r.session s).loggedIn
  /-- It is not listed any more, and every other channel is as it was, unless the channel ids
  have run out. -/
  listed : r.channels.length < 2 ^ 32 - 1 → r'.listed = r.listed.erase (r.channel c).id

/-- What closing a channel by an id does and tells. -/
inductive ChannelClosing (id : ChannelId) (r : Relay) : Bool × Relay → Prop where
  /-- No channel is listed under the id, and none that is not over has it, unless the channel
  ids have run out. -/
  | missing (hunlisted : r.listed.get? id = none)
      (hnone : r.channels.length < 2 ^ 32 - 1 → ∀ c, (r.channel c).stopped = false →
        (r.channel c).id ≠ id) :
      ChannelClosing id r (false, r)
  /-- A channel is listed, which is the one that is not over and has the id, unless the
  channel ids have run out. -/
  | closed {r' : Relay} (c : ChannelRef) (hlisted : r.listed.get? id = some c)
      (honly : r.channels.length < 2 ^ 32 - 1 → ∀ d,
        (r.channel d).stopped = false ∧ (r.channel d).id = id ↔ d = c)
      (hended : ChannelEnded c r r') : ChannelClosing id r (true, r')

theorem run_closeChannel (r : Relay) (id : ChannelId) :
    (closeChannel id).run r =
      match r.listed.get? id with
      | none => (false, r)
      | some c => (true, (stopChannel c).exec r) := by
  simp only [closeChannel, run_bind, run_read]
  cases r.listed.get? id with
  | none => rfl
  | some c =>
      rw [run_bind, run_pure]
      rfl

theorem Sound.channelEnded (h : Sound r) (hlisted : r.listed.get? id = some c) :
    ChannelEnded c r ((Relay.stopChannel c).exec r) where
  eq := rfl
  stopped := stopped_stopChannel_iff r c
  running := (rel_exec_of_each (stopChannel_sameLogins c) r).running
  loggedIn := (rel_exec_of_each (stopChannel_sameLogins c) r).loggedIn
  listed hn := by
    have hregistered := (h.ordered hn).registered
    have hopen := ((hregistered.listed_get id c).mp hlisted).1
    have hentry := (hregistered.entries_get _ .src _ c).mpr ⟨hopen, rfl, rfl, not_false⟩
    exact (stopChannel_dropped hopen (.inl (Registry.mem_keys_iff.mpr ⟨c, hentry⟩))).listed

theorem Sound.closeChannel (h : Sound r) (id : ChannelId) :
    ChannelClosing id r ((Relay.closeChannel id).run r) := by
  rw [run_closeChannel]
  cases hget : r.listed.get? id with
  | none =>
      refine .missing hget fun hn c hopen hid => ?_
      have hlisted := ((h.ordered hn).registered.listed_get id c).mpr ⟨hopen, hid⟩
      cases hget.symm.trans hlisted
  | some c =>
      refine .closed c hget (fun hn d => ?_) (h.channelEnded hget)
      rw [← (h.ordered hn).registered.listed_get, hget, Option.some.injEq, eq_comm]

end PeerRelay.Relay
