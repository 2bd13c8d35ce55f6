import PeerRelay.Proofs.Relay.Registration

/-!
# A session ends all its channels

When a session ends it hands out the entries of one side and stops the channels
one by one, and then the same for the other side. Afterwards every channel that
is left is in its places again, and none of them has an end at the session.
-/

namespace PeerRelay.Relay

open Steps

variable {r r' : Relay} {s : SessionRef} {c : ChannelRef}

/-- No session has handed out any entries. -/
abbrev Complete : SessionRef → Side → Prop := fun _ _ => False

/-- A session has handed out the entries of one side. -/
def Emptied (s : SessionRef) (side : Side) : SessionRef → Side → Prop :=
  fun t other => t = s ∧ other = side

/-! ## Handing out entries -/

/-- In whatever order the channels of a session are listed. -/
theorem mem_channelsOn_iff {side : Side} :
    c ∈ r.channelsOn s side ↔ ∃ id, ((r.session s).channels side).get? id = some c := by
  rw [channelsOn, Registry.Listing.mem_values, Registry.mem_values_iff]

theorem run_takeChannels (hs : s < r.sessions.length) (side : Side) :
    (takeChannels s side).run r = (r.channelsOn s side, r.withEntries s side .empty) := by
  have hget (entries : Registry ChannelId ChannelRef) :
      ((r.modifySession s (·.withChannels side entries)).session s).channels side = entries := by
    rw [session_modifySession, if_pos ⟨rfl, hs⟩, Session.channels_withChannels, if_pos rfl]
  have hput (entries others : Registry ChannelId ChannelRef) :
      (r.modifySession s (·.withChannels side entries)).modifySession s
          (·.withChannels side others) =
        r.modifySession s (·.withChannels side others) := by
    rw [modifySession_modifySession]
    congr 1
    funext x
    exact Session.withChannels_withChannels ..
  generalize hlisting : r.config.channelListing s side = listing
  have htake := Registry.run_takeAll listing ((r.session s).channels side)
  simp only [Registry.takeAll, run_bind, run_read] at htake
  have hrun (keys : List ChannelId) : (onEntries s side (Registry.removeEach keys)).run
      (r.modifySession s (·.withChannels side ((r.session s).channels side))) = _ :=
    run_within_eq hget hput (Registry.removeEach keys) _
  have hself : r.modifySession s (·.withChannels side ((r.session s).channels side)) = r :=
    modifySession_of_eq (Session.withChannels_channels ..)
  simp only [hself] at hrun
  simp only [takeChannels, run_bind, run_read, hlisting, hrun, htake, channelsOn]
  rfl

theorem exec_takeChannels (hs : s < r.sessions.length) (side : Side) :
    (takeChannels s side).exec r = r.withEntries s side .empty :=
  congrArg Prod.snd (run_takeChannels hs side)

theorem exec_endSide (hs : s < r.sessions.length) (side : Side) (f : ChannelRef → Op Unit) :
    (do (← takeChannels s side).forM f : Op Unit).exec r =
      ((r.channelsOn s side).forM f).exec (r.withEntries s side .empty) := by
  rw [exec_bind, exec_takeChannels hs, run_takeChannels hs]

theorem exec_stopChannels (s : SessionRef) (r : Relay) :
    (stopChannels s).exec r =
      (do (← takeChannels s .dst).forM stopChannel : Op Unit).exec
        ((do (← takeChannels s .src).forM discardChannel : Op Unit).exec r) := by
  simp only [stopChannels, exec_bind]

namespace Registered

theorem handedOut (h : Registered r Complete) (hs : s < r.sessions.length) (side : Side) :
    Registered (r.withEntries s side .empty) (Emptied s side) := by
  refine ⟨h.id_eq, h.next_eq, h.listed_get, fun t other id c => ?_, h.slots_eq⟩
  rw [channels_withEntries hs]
  split
  · rename_i hts
    constructor
    · intro hnone
      cases hnone
    · rintro ⟨-, -, -, hkept⟩
      exact absurd hts hkept
  · rename_i hts
    rw [h.entries_get]
    refine and_congr_right fun _ => and_congr_right fun _ => and_congr_right fun _ => ?_
    exact ⟨fun _ => hts, fun _ => not_false⟩

/-- Entries that no channel is left for are not missed. -/
theorem complete {emptied : SessionRef → Side → Prop} (h : Registered r emptied)
    (hnone : ∀ c side, (r.channel c).stopped = false →
      ¬ emptied ((r.channel c).terms.session side) side) : Registered r Complete := by
  refine ⟨h.id_eq, h.next_eq, h.listed_get, fun s side id c => ?_, h.slots_eq⟩
  rw [h.entries_get]
  constructor
  · rintro ⟨ho, hid, hsession, -⟩
    exact ⟨ho, hid, hsession, not_false⟩
  · rintro ⟨ho, hid, rfl, -⟩
    exact ⟨ho, hid, rfl, hnone c side ho⟩

/-! ## Stopping what was handed out -/

/-- A channel was stopped, or was over already, and the others are where they were. -/
theorem stopChannel {emptied : SessionRef → Side → Prop} (h : Registered r emptied)
    (hn : r.channels.length < 2 ^ 32 - 1)
    (hsrc : ¬ emptied ((r.channel c).terms.session .src) .src) :
    Registered ((stopChannel c).exec r) emptied ∧
      (((Relay.stopChannel c).exec r).channel c).stopped = true ∧
      ((Relay.stopChannel c).exec r).channels.length = r.channels.length := by
  cases hc : (r.channel c).stopped with
  | true =>
      have hsame := stopChannel_of_stopped hc
      exact ⟨h.sameChannels hsame, (hsame.stopped c).trans hc, hsame.length⟩
  | false =>
      have hentry := (h.entries_get _ .src _ c).mpr ⟨hc, rfl, rfl, hsrc⟩
      have hdropped := stopChannel_dropped hc (.inl (Registry.mem_keys_iff.mpr ⟨c, hentry⟩))
      exact ⟨h.dropped hn hc hdropped, (hdropped.stopped c).mpr (.inl rfl), hdropped.length⟩

theorem discardChannel {emptied : SessionRef → Side → Prop} (h : Registered r emptied)
    (hn : r.channels.length < 2 ^ 32 - 1) :
    Registered ((discardChannel c).exec r) emptied ∧
      (((Relay.discardChannel c).exec r).channel c).stopped = true ∧
      ((Relay.discardChannel c).exec r).channels.length = r.channels.length := by
  cases hc : (r.channel c).stopped with
  | true =>
      have hgone := h.not_mem_listed hn hc
      have hforgotten : r.forgotten (r.channel c).id = r := by
        simp only [forgotten, Registry.erase_of_not_mem hgone, if_neg hgone]
      have hsame := stopChannel_of_stopped hc
      rw [exec_discardChannel, hforgotten]
      exact ⟨h.sameChannels hsame, (hsame.stopped c).trans hc, hsame.length⟩
  | false =>
      have hdropped := discardChannel_dropped hc
      exact ⟨h.dropped hn hc hdropped, (hdropped.stopped c).mpr (.inl rfl), hdropped.length⟩

end Registered

/-! ## All channels of a session -/

section Loop

variable {emptied : SessionRef → Side → Prop} {f : ChannelRef → Op Unit}
  (hf : ∀ c r, Registered r emptied → r.channels.length < 2 ^ 32 - 1 →
    Registered ((f c).exec r) emptied ∧ (((f c).exec r).channel c).stopped = true ∧
      ((f c).exec r).channels.length = r.channels.length)
  (hlasting : ∀ c, (f c).Each Lasting)
include hf hlasting

/-- A loop that stops one channel after another leaves none of them open. -/
theorem Registered.forM (cs : List ChannelRef) (h : Registered r emptied)
    (hn : r.channels.length < 2 ^ 32 - 1) (hcs : ∀ c ∈ cs, c < r.channels.length) :
    Registered ((cs.forM f).exec r) emptied ∧
      (∀ c ∈ cs, (((cs.forM f).exec r).channel c).stopped = true) ∧
      ((cs.forM f).exec r).channels.length = r.channels.length := by
  induction cs generalizing r with
  | nil => exact ⟨h, fun _ hc => (List.not_mem_nil hc).elim, rfl⟩
  | cons c cs ih =>
      obtain ⟨hone, hstopped, hlen⟩ := hf c r h hn
      rw [exec_forM_cons]
      have hcs' : ∀ d ∈ cs, d < ((f c).exec r).channels.length := by
        intro d hd
        rw [hlen]
        exact hcs d (List.mem_cons_of_mem c hd)
      obtain ⟨hall, hrest, hlen'⟩ := ih hone (hlen ▸ hn) hcs'
      refine ⟨hall, ?_, hlen'.trans hlen⟩
      intro d hd
      rcases List.mem_cons.mp hd with rfl | hd
      · -- It was stopped first, and what is over stays over while the others are stopped.
        have hlater := rel_exec_of_each (each_forM hlasting cs) ((f d).exec r)
        exact hlater.stopped d (hlen ▸ hcs d hd) hstopped
      · exact hrest d hd

end Loop

/-- A session that hands out a side and has the channels stopped has none left there. -/
theorem Registered.endSide {f : ChannelRef → Op Unit} {side : Side} (h : Registered r Complete)
    (hn : r.channels.length < 2 ^ 32 - 1) (hs : s < r.sessions.length)
    (hf : ∀ c r, Registered r (Emptied s side) → r.channels.length < 2 ^ 32 - 1 →
      Registered ((f c).exec r) (Emptied s side) ∧ (((f c).exec r).channel c).stopped = true ∧
        ((f c).exec r).channels.length = r.channels.length)
    (hlasting : ∀ c, (f c).Each Lasting) {r' : Relay}
    (hr' : (do (← takeChannels s side).forM f : Op Unit).exec r = r') :
    Registered r' Complete ∧ r'.channels.length = r.channels.length ∧
      ∀ c, (r'.channel c).stopped = false → (r'.channel c).terms.session side ≠ s := by
  rw [exec_endSide hs] at hr'
  have hcs : ∀ c ∈ r.channelsOn s side, c < (r.withEntries s side .empty).channels.length := by
    intro c hc
    obtain ⟨id, hid⟩ := mem_channelsOn_iff.mp hc
    exact lt_of_stopped_eq_false ((h.entries_get s side id c).mp hid).1
  obtain ⟨hdone, hstopped, hlen⟩ :=
    Registered.forM hf hlasting _ (h.handedOut hs side) hn hcs
  have hlast := rel_exec_of_each (each_forM hlasting (r.channelsOn s side))
    (r.withEntries s side .empty)
  rw [hr'] at hdone hstopped hlen hlast
  have hnone (c : ChannelRef) (hc : (r'.channel c).stopped = false) :
      (r'.channel c).terms.session side ≠ s := by
    intro hsession
    have hlt : c < r.channels.length := by
      rw [show r.channels.length = r'.channels.length from hlen.symm]
      exact lt_of_stopped_eq_false hc
    have hopen := hlast.open_before hlt hc
    -- The channel was open and had its end at the session, so it was handed out.
    have hterms : (r'.channel c).terms = (r.channel c).terms := hlast.terms c hlt
    have hentry := (h.entries_get s side _ c).mpr
      ⟨hopen, rfl, by rw [← hterms]; exact hsession, not_false⟩
    cases hc.symm.trans (hstopped c (mem_channelsOn_iff.mpr ⟨_, hentry⟩))
  refine ⟨hdone.complete ?_, hlen, hnone⟩
  rintro c other hc ⟨hsession, rfl⟩
  exact hnone c hc hsession

/-- A session that stops its channels is left without any. -/
theorem Registered.stopChannels (h : Registered r Complete)
    (hn : r.channels.length < 2 ^ 32 - 1) (hs : s < r.sessions.length) :
    Registered ((stopChannels s).exec r) Complete ∧
      ((Relay.stopChannels s).exec r).channels.length = r.channels.length ∧
      ∀ c side, (((Relay.stopChannels s).exec r).channel c).stopped = false →
        (((Relay.stopChannels s).exec r).channel c).terms.session side ≠ s := by
  generalize hr₁ : (do (← takeChannels s .src).forM Relay.discardChannel : Op Unit).exec r = r₁
  generalize hr₂ : (do (← takeChannels s .dst).forM Relay.stopChannel : Op Unit).exec r₁ = r₂
  have hexec : (Relay.stopChannels s).exec r = r₂ := by
    rw [exec_stopChannels, hr₁, hr₂]
  have hs₁ : s < r₁.sessions.length := by
    have hsame := rel_exec_of_each (each_bind (takeChannels_sameLogins s .src)
      fun cs => each_forM discardChannel_sameLogins cs) r
    rw [hr₁] at hsame
    rwa [hsame.length]
  obtain ⟨hsrc, hlen₁, hnosrc⟩ := h.endSide hn hs (fun c r h hn => h.discardChannel hn)
    discardChannel_lasting hr₁
  have hn₁ : r₁.channels.length < 2 ^ 32 - 1 := hlen₁ ▸ hn
  have hstop (c : ChannelRef) (r : Relay) (h : Registered r (Emptied s .dst))
      (hn : r.channels.length < 2 ^ 32 - 1) := by
    refine h.stopChannel (c := c) hn ?_
    rintro ⟨-, hside⟩
    cases hside
  obtain ⟨hdst, hlen₂, hnodst⟩ := hsrc.endSide hn₁ hs₁ hstop stopChannel_lasting hr₂
  have hlast : Lasting r₁ r₂ := by
    rw [← hr₂]
    have htake : (takeChannels s .dst).Each Lasting :=
      each_takeChannels fun _ _ => .of_channels_eq rfl
    exact rel_exec_of_each (each_bind htake fun cs => each_forM stopChannel_lasting cs) r₁
  rw [hexec]
  refine ⟨hdst, hlen₂.trans hlen₁, ?_⟩
  intro c side hc
  cases side with
  | dst => exact hnodst c hc
  | src =>
      -- What is open at the very end was open when the other side was done with.
      have hlt : c < r₁.channels.length := hlen₂ ▸ lt_of_stopped_eq_false hc
      have hopen := hlast.open_before hlt hc
      rw [hlast.terms c hlt]
      exact hnosrc c hopen

end PeerRelay.Relay
