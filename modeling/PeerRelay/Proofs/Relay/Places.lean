import PeerRelay.Proofs.Relay.Leftovers

/-!
# Where entries stand

In any relay, however many channels there have been, an entry stands under the id of its channel,
with the session that the channel has this end at, and no channel has both ends at one session.
That each session has at most one entry for a channel follows.
-/

namespace PeerRelay.Relay

open Steps

variable {r r' : Relay} {s : SessionRef} {c : ChannelRef}

/-! ## The ends of a channel -/

theorem sessions_eq_iff_of_terms {c d : Channel} (h : d.terms = c.terms) :
    d.src.session = d.dst.session ↔ c.src.session = c.dst.session := by
  have hends (side : Side) : (d.endpoint side).session = (c.endpoint side).session :=
    congrFun (congrArg Channel.Terms.session h) side
  rw [show d.src.session = c.src.session from hends .src,
    show d.dst.session = c.dst.session from hends .dst]

/-- No channel gets both ends at one session, neither one that is made nor one that was there. -/
def KeepsApart (r r' : Relay) : Prop :=
  ∀ c < r'.channels.length,
    c < r.channels.length ∧ (r'.channel c).terms = (r.channel c).terms ∨
      (r'.channel c).src.session ≠ (r'.channel c).dst.session

namespace KeepsApart

theorem of_terms (hlength : r'.channels.length = r.channels.length)
    (hterms : ∀ c, (r'.channel c).terms = (r.channel c).terms) : KeepsApart r r' :=
  fun c hc => .inl ⟨hlength ▸ hc, hterms c⟩

theorem of_keepsChannels (h : KeepsChannels r r') : KeepsApart r r' :=
  of_terms (congrArg List.length h) fun c => congrArg Channel.terms (h.channel c)

theorem of_sameChannels (h : SameChannels r r') : KeepsApart r r' := of_terms h.length h.terms

/-- What was apart still is. -/
theorem apart (h : KeepsApart r r')
    (hapart : ∀ c < r.channels.length, (r.channel c).src.session ≠ (r.channel c).dst.session) :
    ∀ c < r'.channels.length, (r'.channel c).src.session ≠ (r'.channel c).dst.session := by
  intro c hc
  rcases h c hc with ⟨hlt, hsame⟩ | hne
  · exact mt (sessions_eq_iff_of_terms hsame).mp (hapart c hlt)
  · exact hne

instance : Std.Refl KeepsApart := ⟨fun _ => of_terms rfl fun _ => rfl⟩

instance : Trans KeepsApart KeepsApart KeepsApart where
  trans {r r' r''} h h' := by
    intro c hc
    rcases h' c hc with ⟨hlt, hsame⟩ | hne
    · exact (h c hlt).imp (fun hold => ⟨hold.1, hsame.trans hold.2⟩)
        (mt (sessions_eq_iff_of_terms hsame).mp)
    · exact .inr hne

end KeepsApart

theorem keepsApart_of_keepsChannels {α : Type} {p : Op α} (h : p.Each KeepsChannels) :
    p.Each KeepsApart :=
  h.mono fun _ _ => .of_keepsChannels

theorem keepsApart_of_sameChannels {α : Type} {p : Op α} (h : p.Each SameChannels) :
    p.Each KeepsApart :=
  h.mono fun _ _ => .of_sameChannels

theorem stopChannel_keepsApart (c : ChannelRef) : (stopChannel c).Each KeepsApart :=
  composed_each.stopChannel
    (each_atomic fun r => .of_terms (length_halted r c) (terms_halted r c))
    (composed_each.tearDown (fun _ _ _ => keepsApart_of_keepsChannels (closeEnd_keepsChannels ..))
      (keepsApart_of_sameChannels (retireChannel_sameChannels c))
      (keepsApart_of_sameChannels (countClosed_sameChannels c)))

theorem openChannel_keepsApart {src dst : SessionRef} (h : dst ≠ src) :
    (openChannel src dst).Each KeepsApart := by
  refine each_atomic fun r => ?_
  have happend (c : ChannelRef) : ((openChannel src dst).exec r).channel c =
      if c = r.channels.length then r.newChannel src dst else r.channel c :=
    channel_append r (r.newChannel src dst) c
  show KeepsApart r ((openChannel src dst).exec r)
  intro c hc
  rw [length_openChannel] at hc
  rw [happend]
  split
  · exact .inr h.symm
  · rename_i hold
    exact .inl ⟨Nat.lt_of_le_of_ne (Nat.le_of_lt_succ hc) hold, rfl⟩

/-- A request for a channel to oneself is refused before a channel is made. -/
theorem createChannel_keepsApart (src : SessionRef) (id : SessionId) :
    (createChannel src id).Each KeepsApart := by
  have hkeeps {α : Type} {p : Op α} (h : p.Each KeepsChannels) : p.Each KeepsApart :=
    keepsApart_of_keepsChannels h
  exact composed_each.createChannel (hkeeps reserveSlot_keepsChannels)
    (hkeeps releaseSlot_keepsChannels) (fun _ hne => openChannel_keepsApart hne)
    (fun _ _ => hkeeps (listChannel_keepsChannels ..))
    (fun _ => hkeeps (joinSessions_keepsChannels _))
    (fun _ => hkeeps (forgetChannel_keepsChannels _)) stopChannel_keepsApart id

theorem stopSession_keepsApart (s : SessionRef) : (stopSession s).Each KeepsApart := by
  have hkeeps {α : Type} {p : Op α} (h : p.Each KeepsChannels) : p.Each KeepsApart :=
    keepsApart_of_keepsChannels h
  have hstop : (stopChannels s).Each KeepsApart :=
    composed_each.stopChannels (fun s side => hkeeps (takeChannels_keepsChannels s side))
      (composed_each.discardChannel (fun _ => hkeeps (forgetChannel_keepsChannels _))
        stopChannel_keepsApart) stopChannel_keepsApart s
  exact composed_each.stopSession (hkeeps (each_atomic fun _ => rfl))
    (hkeeps (each_modify fun _ => rfl)) hstop
    (keepsApart_of_sameChannels (dismiss_sameChannels s))
    (keepsApart_of_sameChannels (detach_sameChannels s))

theorem compositional_keepsApart : Compositional fun _ p => p.Each KeepsApart where
  quiet := keepsApart_of_sameChannels
  bind := each_bind

theorem event_keepsApart (e : Event) : e.op.Each KeepsApart :=
  compositional_keepsApart.event
    (compositional_keepsApart.serveProxy createChannel_keepsApart) stopChannel_keepsApart
    stopSession_keepsApart e

/-! ## The entries of a session -/

/-- Entries stand where their channels belong. -/
structure InPlace (r : Relay) : Prop where
  /-- An entry is under the id of its channel, at a session that the channel belongs to. -/
  entry : ∀ s side k c, ((r.session s).channels side).get? k = some c →
    c < r.channels.length ∧ (r.channel c).id = k ∧ ((r.channel c).endpoint side).session = s
  apart : ∀ c < r.channels.length, (r.channel c).src.session ≠ (r.channel c).dst.session

/-- Between two events nobody has anything to see to, and what every operation sees to keeps the
entries where they belong. -/
theorem tidy_after (config : Config) (events : List Event) :
    ∃ notes : Nat → Agenda, (notes 0).Free ∧ Tidy notes (Relay.after { config } events) := by
  induction events using List.reverseRecOn with
  | nil =>
      refine ⟨fun _ => {}, nofun, fun _ => nofun, fun s side k c hc => ?_, nofun, nofun,
        fun c side _ hin => ?_, nofun⟩
      · cases side <;> cases hc
      · cases side <;> cases hin
  | append_singleton events e ih =>
      obtain ⟨notes, hfree, htidy⟩ := ih
      have hfollows := compositional_tidiesUp.event serveProxy_tidiesUp stopChannel_tidiesUp
        stopSession_tidiesUp e 0 (notes 0) hfree
      obtain ⟨g', hfree', htidy'⟩ := hfollows.run rfl htidy
      rw [after_snoc]
      refine ⟨Function.update notes 0 g', ?_, htidy'⟩
      rwa [Function.update_self]

namespace InPlace

variable {side : Side}

theorem of_mem_channelsOn (h : InPlace r) (hc : c ∈ r.channelsOn s side) :
    c < r.channels.length ∧ ((r.channel c).endpoint side).session = s := by
  obtain ⟨k, hk⟩ := mem_channelsOn_iff.mp hc
  obtain ⟨hlt, -, hsession⟩ := h.entry s side k c hk
  exact ⟨hlt, hsession⟩

theorem sameChannels (h : InPlace r) (hs : SameChannels r r') : InPlace r' where
  entry s side k c hc := by
    rw [hs.entries] at hc
    obtain ⟨hlt, hid, hsession⟩ := h.entry s side k c hc
    refine ⟨hs.length.symm ▸ hlt, ?_, ?_⟩
    · exact (congrArg Channel.Terms.id (hs.terms c)).trans hid
    · exact (congrFun (congrArg Channel.Terms.session (hs.terms c)) side).trans hsession
  apart c hc := mt (sessions_eq_iff_of_terms (hs.terms c)).mp (h.apart c (hs.length ▸ hc))

theorem other_ne (h : InPlace r) (hc : c ∈ r.channelsOn s side) :
    ((r.channel c).endpoint side.other).session ≠ s := by
  obtain ⟨hlt, hsession⟩ := h.of_mem_channelsOn hc
  intro hother
  refine h.apart c hlt ?_
  cases side with
  | src => exact hsession.trans hother.symm
  | dst => exact hother.trans hsession.symm

/-- The keys of a session's entries are the ids of its channels. -/
theorem map_id_values (h : InPlace r) (s : SessionRef) (side : Side) :
    ((r.session s).channels side).values.map (fun c => (r.channel c).id) =
      ((r.session s).channels side).keys := by
  rw [Registry.values, Registry.keys, List.map_map]
  refine List.map_congr_left fun e he => ?_
  exact (h.entry s side e.1 e.2 (Registry.get?_eq_some_iff.mpr he)).2.1

/-- No two channels that a session has entered on one side have one id. -/
theorem nodup_ids (h : InPlace r) (s : SessionRef) (side : Side) :
    ((r.channelsOn s side).map fun c => (r.channel c).id).Nodup := by
  have hlisted := (r.config.channelListing s side).values_perm ((r.session s).channels side)
  refine (hlisted.map fun c => (r.channel c).id).nodup_iff.mpr ?_
  rw [h.map_id_values]
  exact ((r.session s).channels side).nodup

/-- A session does not have a channel on both sides. -/
theorem not_mem_channelsOn_other (h : InPlace r) (hc : c ∈ r.channelsOn s side) :
    c ∉ r.channelsOn s side.other :=
  fun hother => h.other_ne hc (h.of_mem_channelsOn hother).2

end InPlace

theorem inPlace_after (config : Config) (events : List Event) :
    InPlace (Relay.after { config } events) where
  entry s side k c hc := by
    obtain ⟨notes, -, htidy⟩ := tidy_after config events
    exact htidy.placed s side k c hc
  apart := by
    induction events using List.reverseRecOn with
    | nil => exact nofun
    | append_singleton events e ih =>
        rw [after_snoc]
        exact (rel_exec_of_each (event_keepsApart e) _).apart ih

end PeerRelay.Relay
