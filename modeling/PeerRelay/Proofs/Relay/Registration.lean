import PeerRelay.Proofs.Registry
import PeerRelay.Proofs.Relay.Lasting

/-!
# Registration of channels

A channel that is not over is in three places: the relay lists it under its id,
and each of its two sessions has an entry for it. The invariant says that these
places have nothing else. It is broken while a session that ends has handed out
the entries of one side, and holds again when the last of these channels is over.
-/

namespace PeerRelay.Relay

open Steps

variable {r r' r'' : Relay} {c : ChannelRef}

/-! ## Taking a channel out of its places -/

/-- A relay on which a session has other entries on a side. -/
def withEntries (s : SessionRef) (side : Side) (entries : Registry ChannelId ChannelRef)
    (r : Relay) : Relay :=
  r.modifySession s (·.withChannels side entries)

/-- A relay on which a session has let go of a channel. -/
def left (s : SessionRef) (side : Side) (id : ChannelId) (r : Relay) : Relay :=
  r.withEntries s side (((r.session s).channels side).erase id)

/-- A relay that has taken a channel off the list. -/
def forgotten (id : ChannelId) (r : Relay) : Relay :=
  { r with
    listed := r.listed.erase id
    slots := if id ∈ r.listed.keys then r.slots - 1 else r.slots }

theorem sameLogins_withEntries (s : SessionRef) (side : Side)
    (entries : Registry ChannelId ChannelRef) (r : Relay) :
    SameLogins r (r.withEntries s side entries) :=
  .modifySession r s fun _ => Session.identity_withChannels ..

theorem channels_withEntries {s : SessionRef} (hs : s < r.sessions.length) (side : Side)
    (entries : Registry ChannelId ChannelRef) (t : SessionRef) (other : Side) :
    ((r.withEntries s side entries).session t).channels other =
      if t = s ∧ other = side then entries else (r.session t).channels other := by
  rw [withEntries, session_modifySession]
  by_cases hts : t = s
  · subst hts
    rw [if_pos ⟨rfl, hs⟩, Session.channels_withChannels]
    exact if_congr (by simp) rfl rfl
  · rw [if_neg fun h => hts h.1.symm, if_neg fun h => hts h.1]

theorem channels_left (r : Relay) (s t : SessionRef) (side other : Side) (id : ChannelId) :
    ((r.left s side id).session t).channels other =
      if t = s ∧ other = side then ((r.session t).channels other).erase id
      else (r.session t).channels other := by
  by_cases hs : s < r.sessions.length
  · rw [left, channels_withEntries hs]
    split
    · rename_i h
      rw [h.1, h.2]
    · rfl
  · have hsame : (r.left s side id).session t = r.session t := by
      refine (session_modifySession ..).trans (if_neg ?_)
      rintro ⟨rfl, ht⟩
      exact hs ht
    rw [hsame]
    split
    · rename_i h
      rw [h.1, session_of_le (Nat.le_of_not_lt hs)]
      cases other <;> rfl
    · rfl

theorem exec_forgetChannel (r : Relay) (id : ChannelId) :
    (forgetChannel id).exec r = r.forgotten id := by
  by_cases hid : id ∈ r.listed.keys
  · have hunlist : (unlistChannel id).run r = (true, { r with listed := r.listed.erase id }) := by
      simp only [unlistChannel, run_atomic, Registry.contains_iff.mpr hid]
    simp only [exec, forgetChannel, run_bind, hunlist, if_true, releaseSlot, run_modify,
      forgotten, if_pos hid]
  · have hunlist : (unlistChannel id).run r =
        (false, { r with listed := r.listed.erase id }) := by
      simp only [unlistChannel, run_atomic,
        Bool.eq_false_iff.mpr (mt Registry.contains_iff.mp hid)]
    simp only [exec, forgetChannel, run_bind, hunlist, Bool.false_eq_true, if_false, run_pure,
      forgotten, if_neg hid]

theorem run_leave (r : Relay) (s : SessionRef) (side : Side) (id : ChannelId) :
    (leave s side id).run r =
      (((r.session s).channels side).contains id, r.left s side id) := rfl

/-- The source session's entry takes the listing with it. -/
theorem closeEnd_src (r : Relay) (id : ChannelId) (e : Channel.Endpoint) :
    SameChannels
      (if id ∈ ((r.session e.session).channels .src).keys then
        (r.left e.session .src id).forgotten id
      else r.left e.session .src id)
      ((closeEnd id .src e).exec r) := by
  by_cases hid : id ∈ ((r.session e.session).channels .src).keys
  · have hexec : (closeEnd id .src e).exec r =
        (notifyStop e.session id e.relay).exec ((r.left e.session .src id).forgotten id) := by
      simp only [closeEnd, exec_bind, run_leave, Registry.contains_iff.mpr hid, if_true]
      rw [← exec_forgetChannel]
      rfl
    rw [hexec, if_pos hid]
    exact rel_exec_of_each (notifyStop_sameChannels ..) _
  · rw [if_neg hid]
    simp only [closeEnd, exec_bind, run_leave,
      Bool.eq_false_iff.mpr (mt Registry.contains_iff.mp hid), Bool.false_eq_true, if_false]
    exact .refl _

theorem closeEnd_dst (r : Relay) (id : ChannelId) (e : Channel.Endpoint) :
    SameChannels (r.left e.session .dst id) ((closeEnd id .dst e).exec r) := by
  have hleave : (leave e.session .dst id).exec r = r.left e.session .dst id := rfl
  by_cases hid : id ∈ ((r.session e.session).channels .dst).keys
  · simp only [closeEnd, exec_bind, run_leave, hleave, Registry.contains_iff.mpr hid, if_true,
      reduceCtorEq, if_false]
    exact rel_exec_of_each (notifyStop_sameChannels ..) _
  · simp only [closeEnd, exec_bind, run_leave, hleave,
      Bool.eq_false_iff.mpr (mt Registry.contains_iff.mp hid), Bool.false_eq_true, if_false]
    exact .refl _

/-- As long as the entry of the source session and the listing go together, the end of the
source session takes the channel out of both. -/
theorem closeEnd_src_of_listed {id : ChannelId} {e : Channel.Endpoint}
    (h : id ∈ ((r.session e.session).channels .src).keys ∨ id ∉ r.listed.keys) :
    SameChannels ((r.left e.session .src id).forgotten id) ((closeEnd id .src e).exec r) := by
  have hclose := closeEnd_src r id e
  by_cases hid : id ∈ ((r.session e.session).channels .src).keys
  · rwa [if_pos hid] at hclose
  · rw [if_neg hid] at hclose
    have hlisted : id ∉ (r.left e.session .src id).listed.keys := h.resolve_left hid
    have hsame : (r.left e.session .src id).forgotten id = r.left e.session .src id := by
      simp only [forgotten, Registry.erase_of_not_mem hlisted, if_neg hlisted]
    rwa [hsame]

/-! ## Stopping a channel -/

/-- A relay on which a channel was just marked as over. -/
def halted (c : ChannelRef) (r : Relay) : Relay := r.modifyChannel c Channel.halt

theorem length_halted (r : Relay) (c : ChannelRef) :
    (r.halted c).channels.length = r.channels.length :=
  List.length_modify ..

theorem terms_halted (r : Relay) (c d : ChannelRef) :
    ((r.halted c).channel d).terms = (r.channel d).terms :=
  channel_modifyChannel_congr Channel.terms (Channel.terms_halt _) d

theorem stopped_halted (h : c < r.channels.length) (d : ChannelRef) :
    ((r.halted c).channel d).stopped = true ↔ d = c ∨ (r.channel d).stopped = true := by
  rw [halted, channel_modifyChannel]
  by_cases hd : d = c
  · subst hd
    rw [if_pos ⟨rfl, h⟩]
    simp [Channel.halt]
  · rw [if_neg fun hc => hd hc.1.symm]
    simp [hd]

/-- A channel went out of all its places, and nothing else went. -/
structure Dropped (c : ChannelRef) (r r' : Relay) : Prop where
  length : r'.channels.length = r.channels.length
  nextChannelId : r'.nextChannelId = r.nextChannelId
  terms : ∀ d, (r'.channel d).terms = (r.channel d).terms
  stopped : ∀ d, (r'.channel d).stopped = true ↔ d = c ∨ (r.channel d).stopped = true
  listed : r'.listed = r.listed.erase (r.channel c).id
  slots : r'.slots = if (r.channel c).id ∈ r.listed.keys then r.slots - 1 else r.slots
  entries : ∀ s side, (r'.session s).channels side =
    if s = (r.channel c).terms.session side then
      ((r.session s).channels side).erase (r.channel c).id
    else (r.session s).channels side

theorem Dropped.sameChannels (h : Dropped c r r') (hs : SameChannels r' r'') :
    Dropped c r r'' where
  length := hs.length.trans h.length
  nextChannelId := hs.nextChannelId.trans h.nextChannelId
  terms d := (hs.terms d).trans (h.terms d)
  stopped d := by rw [hs.stopped, h.stopped]
  listed := hs.listed.trans h.listed
  slots := hs.slots.trans h.slots
  entries s side := (hs.entries s side).trans (h.entries s side)

theorem run_claimStop (r : Relay) (c : ChannelRef) :
    (claimStop c).run r = (!(r.channel c).stopped, r.halted c) := rfl

/-- A stop that comes too late does no more than that. -/
theorem exec_stopChannel_of_stopped (h : (r.channel c).stopped = true) :
    (stopChannel c).exec r = r.halted c := by
  simp only [stopChannel_eq, exec, run_bind, run_claimStop, h, Bool.not_true, Bool.false_eq_true,
    if_false, run_pure]

theorem exec_stopChannel_of_open (h : (r.channel c).stopped = false) :
    (stopChannel c).exec r = (tearDown c).exec (r.halted c) := by
  simp only [stopChannel_eq, exec, run_bind, run_claimStop, h, Bool.not_false, if_true]

theorem stopChannel_of_stopped (h : (r.channel c).stopped = true) :
    SameChannels r ((stopChannel c).exec r) := by
  rw [exec_stopChannel_of_stopped h]
  exact .modifyChannel r c (.step _ .stop) h.symm

/-- Stopping a channel that is open closes one end after the other. -/
theorem exec_stopChannel (h : (r.channel c).stopped = false) :
    (stopChannel c).exec r = (countClosed c).exec ((retireChannel c).exec
      ((closeEnd (r.channel c).id .dst (r.channel c).halt.dst).exec
        ((closeEnd (r.channel c).id .src (r.channel c).halt.src).exec (r.halted c)))) := by
  have hhalted : (r.halted c).channel c = (r.channel c).halt := by
    rw [halted, channel_modifyChannel, if_pos ⟨rfl, lt_of_stopped_eq_false h⟩]
  rw [exec_stopChannel_of_open h]
  simp only [tearDown, exec, run_bind, run_read, hhalted]
  rfl

/-- Stopping a channel takes it out of all its places, if it is not on the list without
its source session having it. -/
theorem stopChannel_dropped (h : (r.channel c).stopped = false)
    (hentry : (r.channel c).id ∈
        ((r.session ((r.channel c).terms.session .src)).channels .src).keys ∨
      (r.channel c).id ∉ r.listed.keys) :
    Dropped c r ((stopChannel c).exec r) := by
  have hexec := exec_stopChannel h
  have hterms := terms_halted r c
  have hstopped := stopped_halted (lt_of_stopped_eq_false h)
  have hlength := length_halted r c
  have hsession (s : SessionRef) : (r.halted c).session s = r.session s := rfl
  have hlisted : (r.halted c).listed = r.listed := rfl
  have hslots : (r.halted c).slots = r.slots := rfl
  have hnext : (r.halted c).nextChannelId = r.nextChannelId := rfl
  -- From the halted channel on, first the source end is closed, then the other.
  generalize r.halted c = r₁ at *
  generalize hr₂ : (closeEnd (r.channel c).id .src (r.channel c).halt.src).exec r₁ = r₂ at *
  generalize hr₃ : (closeEnd (r.channel c).id .dst (r.channel c).halt.dst).exec r₂ = r₃ at *
  have hsrc : SameChannels ((r₁.left (r.channel c).src.session .src (r.channel c).id).forgotten
      (r.channel c).id) r₂ := by
    rw [← hr₂]
    refine closeEnd_src_of_listed (e := (r.channel c).halt.src) ?_
    rw [hsession, hlisted]
    exact hentry
  have hdst : SameChannels (r₂.left (r.channel c).dst.session .dst (r.channel c).id) r₃ := by
    rw [← hr₃]
    exact closeEnd_dst r₂ (r.channel c).id (r.channel c).halt.dst
  have hentries (s : SessionRef) (side : Side) : (r₂.session s).channels side =
      if s = (r.channel c).src.session ∧ side = .src then
        ((r.session s).channels side).erase (r.channel c).id
      else (r.session s).channels side := by
    rw [hsrc.entries, ← hsession]
    exact channels_left ..
  have hdropped : Dropped c r r₃ := by
    refine ⟨?_, ?_, fun d => ?_, fun d => ?_, ?_, ?_, fun s side => ?_⟩
    · exact hdst.length.trans (hsrc.length.trans hlength)
    · exact hdst.nextChannelId.trans (hsrc.nextChannelId.trans hnext)
    · exact (hdst.terms d).trans ((hsrc.terms d).trans (hterms d))
    · have hsame : (r₃.channel d).stopped = (r₁.channel d).stopped :=
        (hdst.stopped d).trans (hsrc.stopped d)
      rw [hsame, hstopped]
    · have hsame : r₃.listed = r₁.listed.erase (r.channel c).id := hdst.listed.trans hsrc.listed
      rw [hsame, hlisted]
    · have hsame : r₃.slots =
          if (r.channel c).id ∈ r₁.listed.keys then r₁.slots - 1 else r₁.slots :=
        hdst.slots.trans hsrc.slots
      rw [hsame, hlisted, hslots]
    · rw [hdst.entries, channels_left]
      cases side with
      | src =>
          rw [if_neg (by simp), hentries]
          exact if_congr (and_iff_left rfl) rfl rfl
      | dst =>
          have hkept : (r₂.session s).channels .dst = (r.session s).channels .dst := by
            rw [hentries, if_neg (by simp)]
          rw [hkept]
          exact if_congr (and_iff_left rfl) rfl rfl
  rw [hexec]
  exact (hdropped.sameChannels (rel_exec_of_each (retireChannel_sameChannels c) _)).sameChannels
    (rel_exec_of_each (countClosed_sameChannels c) _)

theorem exec_discardChannel (r : Relay) (c : ChannelRef) :
    (discardChannel c).exec r = (stopChannel c).exec (r.forgotten (r.channel c).id) := by
  simp only [discardChannel, exec_bind, idOfChannel, run_read]
  rw [← exec_forgetChannel]
  rfl

/-- A channel that is taken off the list first is out of all its places as well. -/
theorem discardChannel_dropped (h : (r.channel c).stopped = false) :
    Dropped c r ((discardChannel c).exec r) := by
  -- The end of the source session finds the list without the channel, which does no harm.
  have hgone : (r.channel c).id ∉ (r.listed.erase (r.channel c).id).keys := by
    intro hmem
    exact (Registry.mem_keys_erase.mp hmem).2 rfl
  have hdropped : Dropped c (r.forgotten (r.channel c).id) _ := stopChannel_dropped h (.inr hgone)
  rw [exec_discardChannel]
  refine ⟨hdropped.length, hdropped.nextChannelId, hdropped.terms, hdropped.stopped, ?_, ?_,
    hdropped.entries⟩
  · rw [hdropped.listed]
    exact Registry.erase_of_not_mem hgone
  · rw [hdropped.slots]
    exact if_neg hgone

/-! ## The invariant -/

def channelIdAt (n : Nat) : ChannelId := idAt firstChannelId n

theorem channelIdAt_toNat {n : Nat} (h : n < 2 ^ 32 - 1) : (channelIdAt n).toNat = n + 1 := by
  have hfirst : firstChannelId.toNat = 1 := rfl
  rw [channelIdAt, idAt_toNat (by omega), hfirst, Nat.add_comm]

theorem channelIdAt_succ (n : Nat) : channelIdAt n + 1 = channelIdAt (n + 1) := idAt_succ ..

theorem channelIdAt_inj {m n : Nat} (hm : m < 2 ^ 32) (hn : n < 2 ^ 32)
    (h : channelIdAt m = channelIdAt n) : m = n :=
  idAt_inj hm hn h

/-- The channels that are not over are the ones that are listed and registered with their
sessions. Some sessions may have handed out the entries of a side. -/
structure Registered (r : Relay) (emptied : SessionRef → Side → Prop) : Prop where
  id_eq : ∀ c < r.channels.length, (r.channel c).id = channelIdAt c
  next_eq : r.nextChannelId = channelIdAt r.channels.length
  listed_get : ∀ id c, r.listed.get? id = some c ↔
    (r.channel c).stopped = false ∧ (r.channel c).id = id
  entries_get : ∀ s side id c, ((r.session s).channels side).get? id = some c ↔
    (r.channel c).stopped = false ∧ (r.channel c).id = id ∧
      (r.channel c).terms.session side = s ∧ ¬ emptied s side
  slots_eq : r.slots = r.listed.size

namespace Registered

variable {emptied : SessionRef → Side → Prop}

theorem sameChannels (h : Registered r emptied) (hs : SameChannels r r') :
    Registered r' emptied where
  id_eq c hc := (congrArg Channel.Terms.id (hs.terms c)).trans (h.id_eq c (hs.length ▸ hc))
  next_eq := by
    rw [hs.nextChannelId, hs.length]
    exact h.next_eq
  listed_get id c := by
    rw [hs.listed, hs.stopped, h.listed_get, show (r'.channel c).id = (r.channel c).id from
      congrArg Channel.Terms.id (hs.terms c)]
  entries_get s side id c := by
    rw [hs.entries, hs.stopped, hs.terms, h.entries_get,
      show (r'.channel c).id = (r.channel c).id from congrArg Channel.Terms.id (hs.terms c)]
  slots_eq := by
    rw [hs.slots, hs.listed]
    exact h.slots_eq

/-- Two channels never have one id as long as the counter has not come round. -/
theorem id_inj (h : Registered r emptied) (hn : r.channels.length < 2 ^ 32 - 1)
    {c d : ChannelRef} (hc : c < r.channels.length) (hd : d < r.channels.length)
    (heq : (r.channel c).id = (r.channel d).id) : c = d := by
  rw [h.id_eq c hc, h.id_eq d hd] at heq
  have hbound : r.channels.length < 2 ^ 32 := Nat.lt_of_lt_of_le hn (Nat.sub_le _ _)
  exact channelIdAt_inj (Nat.lt_trans hc hbound) (Nat.lt_trans hd hbound) heq

theorem id_inj_of_open (h : Registered r emptied) (hn : r.channels.length < 2 ^ 32 - 1)
    {c d : ChannelRef} (hc : (r.channel c).stopped = false) (hd : (r.channel d).stopped = false)
    (heq : (r.channel c).id = (r.channel d).id) : c = d :=
  h.id_inj hn (lt_of_stopped_eq_false hc) (lt_of_stopped_eq_false hd) heq

theorem mem_listed (h : Registered r emptied) {c : ChannelRef}
    (hc : (r.channel c).stopped = false) : (r.channel c).id ∈ r.listed.keys :=
  Registry.mem_keys_iff.mpr ⟨c, (h.listed_get _ c).mpr ⟨hc, rfl⟩⟩

theorem not_mem_listed (h : Registered r emptied) (hn : r.channels.length < 2 ^ 32 - 1)
    {c : ChannelRef} (hc : (r.channel c).stopped = true) : (r.channel c).id ∉ r.listed.keys := by
  rw [Registry.mem_keys_iff]
  rintro ⟨d, hd⟩
  obtain ⟨hopen, heq⟩ := (h.listed_get _ d).mp hd
  have hlt := lt_of_stopped_eq_false hopen
  by_cases hlen : c < r.channels.length
  · obtain rfl := h.id_inj hn hlt hlen heq
    cases hc.symm.trans hopen
  · -- Where no channel stands, the id is zero, which is no channel's.
    rw [channel_of_le (Nat.le_of_not_lt hlen), h.id_eq d hlt] at heq
    have hnat := congrArg UInt32.toNat heq
    rw [channelIdAt_toNat (Nat.lt_trans hlt hn)] at hnat
    exact absurd hnat (Nat.succ_ne_zero d)

theorem dropped (h : Registered r emptied) (hn : r.channels.length < 2 ^ 32 - 1)
    (hc : (r.channel c).stopped = false) (hd : Dropped c r r') : Registered r' emptied := by
  have hid (d : ChannelRef) : (r'.channel d).id = (r.channel d).id :=
    congrArg Channel.Terms.id (hd.terms d)
  have hopen (d : ChannelRef) : (r'.channel d).stopped = false ↔
      (r.channel d).stopped = false ∧ d ≠ c := by
    rw [← Bool.not_eq_true, hd.stopped, not_or, Bool.not_eq_true, and_comm]
  -- An open channel with another id is another channel, and one with the same id is this one.
  have hother {d : ChannelRef} (hd : (r.channel d).stopped = false) :
      d ≠ c ↔ (r.channel d).id ≠ (r.channel c).id :=
    not_congr ⟨fun heq => by rw [heq], h.id_inj_of_open hn hd hc⟩
  constructor
  · intro d hlt
    rw [hid]
    exact h.id_eq d (hd.length ▸ hlt)
  · rw [hd.nextChannelId, hd.length]
    exact h.next_eq
  · intro id d
    rw [hd.listed, Registry.get?_erase, hopen, hid]
    split
    · subst id
      constructor
      · intro hnone
        cases hnone
      · rintro ⟨⟨ho, hne⟩, heq⟩
        exact absurd heq ((hother ho).mp hne)
    · rename_i hne
      rw [h.listed_get]
      constructor
      · rintro ⟨ho, rfl⟩
        exact ⟨⟨ho, (hother ho).mpr hne⟩, rfl⟩
      · rintro ⟨⟨ho, -⟩, heq⟩
        exact ⟨ho, heq⟩
  · intro s side id d
    rw [hd.entries, hopen, hid, hd.terms]
    by_cases hs : s = (r.channel c).terms.session side
    · rw [if_pos hs, Registry.get?_erase]
      split
      · subst id
        constructor
        · intro hnone
          cases hnone
        · rintro ⟨⟨ho, hne⟩, heq, -⟩
          exact absurd heq ((hother ho).mp hne)
      · rename_i hne
        rw [h.entries_get]
        constructor
        · rintro ⟨ho, rfl, hrest⟩
          exact ⟨⟨ho, (hother ho).mpr hne⟩, rfl, hrest⟩
        · rintro ⟨⟨ho, -⟩, hrest⟩
          exact ⟨ho, hrest⟩
    · rw [if_neg hs, h.entries_get]
      constructor
      · rintro ⟨ho, heq, hsession, hempty⟩
        refine ⟨⟨ho, ?_⟩, heq, hsession, hempty⟩
        rintro rfl
        exact hs hsession.symm
      · rintro ⟨⟨ho, -⟩, hrest⟩
        exact ⟨ho, hrest⟩
  · rw [hd.slots, hd.listed, if_pos (h.mem_listed hc),
      Registry.size_erase_of_mem (h.mem_listed hc), h.slots_eq]

end Registered

end PeerRelay.Relay
