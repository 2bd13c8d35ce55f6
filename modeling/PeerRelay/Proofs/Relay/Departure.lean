import PeerRelay.Proofs.Relay.Closing
import PeerRelay.Proofs.Relay.Parting
import PeerRelay.Proofs.Relay.Places
import PeerRelay.Proofs.Relay.Reading

/-!
# What the end of a session does, and nothing else

A session that ends stops the channels that it has entered, those that its client asked for first,
and those of one side in the order in which they are listed.
Every other session lets go of the channels that it shares with the one that ends and is told about
them. Logins, places and the directory lose what the session held of them, and all other sessions
and channels are what they were.
-/

namespace PeerRelay.Relay

open Steps

variable {r r' : Relay} {s t : SessionRef} {c : ChannelRef}

/-! ## All channels of a session -/

/-- The channels that a session has entered, those that its client asked for first. -/
def channelsOf (r : Relay) (s : SessionRef) : List ChannelRef :=
  r.channelsOn s .src ++ r.channelsOn s .dst

/-- The channels that one session has entered on a side, not over, and has with another one. -/
def shared (r : Relay) (s : SessionRef) (side : Side) (t : SessionRef) : List Channel :=
  ((r.channelsOn s side).map r.channel).filter fun c =>
    !c.stopped && decide ((c.endpoint side.other).session = t)

theorem InPlace.nodup_ids_shared (h : InPlace r) (s : SessionRef) (side : Side)
    (t : SessionRef) : ((r.shared s side t).map Channel.id).Nodup := by
  refine (h.nodup_ids s side).sublist ?_
  have hsublist : (r.shared s side t).Sublist ((r.channelsOn s side).map r.channel) :=
    List.filter_sublist
  have hids := hsublist.map Channel.id
  rwa [List.map_map] at hids

section EndSide

variable {f : ChannelRef → Op Unit} {side : Side} (hf : StopsOne f)
  (hs : s < r.sessions.length) (hnodup : (r.channelsOn s side).Nodup)
include hf hs hnodup

theorem channel_endSide (c : ChannelRef) :
    ((do (← takeChannels s side).forM f : Op Unit).exec r).channel c =
      if c ∈ r.channelsOn s side then stoppedChannel (r.channel c) else r.channel c := by
  rw [exec_endSide hs, hf.channel_forM _ hnodup]
  rfl

/-- Of the channels that a session hands out on a side the sessions at the other ends let go. -/
theorem session_endSide (hends : ∀ c ∈ r.channelsOn s side,
      ((r.channel c).endpoint side).session = s ∧
        ((r.channel c).endpoint side.other).session ≠ s) (t : SessionRef) :
    ((do (← takeChannels s side).forM f : Op Unit).exec r).session t =
      if t = s then (r.session s).withChannels side .empty
      else (r.shared s side t).foldl (Session.letGo side.other) (r.session t) := by
  have hkept : (r.withEntries s side .empty).channel = r.channel := rfl
  rw [exec_endSide hs, hf.session_forM _ hnodup, hkept, session_withEntries hs]
  by_cases hts : t = s
  · subst hts
    rw [if_pos rfl, if_pos rfl]
    have hempty : ((r.session t).withChannels side .empty).channels side = .empty := by
      rw [Session.channels_withChannels, if_pos rfl]
    refine foldl_parted_of_empty hempty fun c hc => ?_
    obtain ⟨d, hd, rfl⟩ := List.mem_map.mp hc
    exact (hends d hd).2
  · rw [if_neg hts, if_neg hts]
    refine foldl_parted_of_other hts (fun c hc => ?_) _
    obtain ⟨d, hd, rfl⟩ := List.mem_map.mp hc
    exact (hends d hd).1

end EndSide

/-- What stopping all channels of a session does to sessions and channels. -/
structure Relieved (s : SessionRef) (r r' : Relay) : Prop where
  channel : ∀ c, r'.channel c =
    if c ∈ r.channelsOf s then stoppedChannel (r.channel c) else r.channel c
  session : r'.session s = { r.session s with srcChannels := .empty, dstChannels := .empty }
  other : ∀ t, t ≠ s → r'.session t =
    (r.shared s .dst t).foldl (Session.letGo .src)
      ((r.shared s .src t).foldl (Session.letGo .dst) (r.session t))

theorem InPlace.stopChannels (h : InPlace r) (hs : s < r.sessions.length) :
    Relieved s r ((stopChannels s).exec r) := by
  have hends (side : Side) : ∀ c ∈ r.channelsOn s side,
      ((r.channel c).endpoint side).session = s ∧
        ((r.channel c).endpoint side.other).session ≠ s :=
    fun c hc => ⟨(h.of_mem_channelsOn hc).2, h.other_ne hc⟩
  have hnodup (side : Side) : (r.channelsOn s side).Nodup := (h.nodup_ids s side).of_map
  rw [exec_stopChannels]
  have hsession := session_endSide stopsOne_discardChannel hs (hnodup .src) (hends .src)
  have hchannel := channel_endSide stopsOne_discardChannel hs (hnodup .src)
  have hseats := rel_exec_of_each (each_bind
    ((takeChannels_uncounted s .src).mono fun _ _ => .of_uncounted)
    fun cs => each_forM discardChannel_sameSeats cs) r
  generalize (do (← takeChannels s .src).forM discardChannel : Op Unit).exec r = r₁ at *
  -- The channels on the other side are those that were there, and they are not over yet.
  have hself : r₁.session s = (r.session s).withChannels .src .empty := by
    rw [hsession, if_pos rfl]
  have hs' : s < r₁.sessions.length := hseats.length_sessions.symm ▸ hs
  have hlisted : r₁.channelsOn s .dst = r.channelsOn s .dst := by
    rw [channelsOn, hself, hseats.config]
    rfl
  have hkept : ∀ c ∈ r.channelsOn s .dst, r₁.channel c = r.channel c := by
    intro c hc
    rw [hchannel]
    exact if_neg (h.not_mem_channelsOn_other hc)
  have hends' : ∀ c ∈ r₁.channelsOn s .dst,
      ((r₁.channel c).endpoint .dst).session = s ∧
        ((r₁.channel c).endpoint Side.dst.other).session ≠ s := by
    intro c hc
    rw [hlisted] at hc
    rw [hkept c hc]
    exact hends .dst c hc
  have hnodup' : (r₁.channelsOn s .dst).Nodup := hlisted ▸ hnodup .dst
  have hshared (t : SessionRef) : r₁.shared s .dst t = r.shared s .dst t := by
    rw [shared, shared, hlisted, List.map_congr_left hkept]
  constructor
  case channel =>
    intro c
    rw [channel_endSide stopsOne_stopChannel hs' hnodup', hlisted, hchannel, channelsOf]
    by_cases hsrc : c ∈ r.channelsOn s .src
    · have hdst : c ∉ r.channelsOn s .dst := h.not_mem_channelsOn_other hsrc
      rw [if_neg hdst, if_pos hsrc, if_pos (List.mem_append_left _ hsrc)]
    · rw [if_neg hsrc]
      exact if_congr (by rw [List.mem_append, or_iff_right hsrc]) rfl rfl
  case session =>
    rw [session_endSide stopsOne_stopChannel hs' hnodup' hends', if_pos rfl, hself]
    rfl
  case other =>
    intro t hts
    rw [session_endSide stopsOne_stopChannel hs' hnodup' hends', if_neg hts, hshared, hsession,
      if_neg hts]
    rfl

/-! ## The end of a session -/

theorem channels_leaving (q : Relay) (s : SessionRef) :
    ((detach s).exec ((dismiss s).exec q)).channels = q.channels := by
  have hdismiss : ((dismiss s).exec q).channels = q.channels := by
    rw [exec_dismiss]
    dsimp only
    split
    · split <;> rfl
    · rfl
  rw [exec_detach]
  split <;> exact hdismiss

/-- What becomes of the logins when a session is logged out and taken off the live ones. -/
theorem logins_leaving (q : Relay) (s : SessionRef) :
    ((detach s).exec ((dismiss s).exec q)).guids =
        (if (q.session s).loggedIn then q.guids.erase (q.session s).guid else q.guids) ∧
      ((detach s).exec ((dismiss s).exec q)).index =
        (if (q.session s).loggedIn && (q.session s).role.isDiscoverable then
          q.index.erase (q.session s).id
        else q.index) ∧
      ((detach s).exec ((dismiss s).exec q)).directory =
        if (q.session s).loggedIn && (q.session s).role.isDiscoverable then
          q.directory.enqueue (.del (q.session s).id)
        else q.directory := by
  have hdetach (p : Relay) : ((detach s).exec p).guids = p.guids ∧
      ((detach s).exec p).index = p.index ∧ ((detach s).exec p).directory = p.directory := by
    rw [exec_detach]
    split <;> exact ⟨rfl, rfl, rfl⟩
  obtain ⟨hguids, hindex, hdirectory⟩ := hdetach ((dismiss s).exec q)
  rw [hguids, hindex, hdirectory, exec_dismiss]
  cases (q.session s).loggedIn <;> cases (q.session s).role.isDiscoverable <;>
    exact ⟨rfl, rfl, rfl⟩

/-- What the end of a session does, and that it does nothing else. -/
structure Departed (s : SessionRef) (r r' : Relay) : Prop where
  /-- The channels that the session has entered are over, and no other that was not. -/
  stopped : ∀ c, (r'.channel c).stopped = true ↔
    (r.channel c).stopped = true ∨ c ∈ r.channelsOf s
  /-- Every other channel is in every respect what it was, -/
  channel : ∀ c, c ∉ r.channelsOf s → r'.channel c = r.channel c
  /-- above all those that do not involve the session. -/
  uninvolved : ∀ c, (∀ side, ((r.channel c).endpoint side).session ≠ s) →
    r'.channel c = r.channel c
  /-- The session has ended, is not logged in, and has no entries. -/
  session : r'.session s =
    { r.session s with
      running := false
      loggedIn := false
      srcChannels := .empty
      dstChannels := .empty }
  live : r'.live = r.live.erase s
  connections : r'.connections = r.connections - 1
  guids : r'.guids =
    if (r.session s).loggedIn then r.guids.erase (r.session s).guid else r.guids
  /-- Only one that was logged in and is discoverable leaves the id map and the directory. -/
  index : r'.index =
    if (r.session s).loggedIn && (r.session s).role.isDiscoverable then
      r.index.erase (r.session s).id
    else r.index
  directory : r'.directory =
    if (r.session s).loggedIn && (r.session s).role.isDiscoverable then
      r.directory.enqueue (.del (r.session s).id)
    else r.directory
  /-- Every other session is who it was and has what it had not read. -/
  identity : ∀ t, t ≠ s → (r'.session t).identity = (r.session t).identity
  unread : ∀ t, t ≠ s → (r'.session t).unread = (r.session t).unread
  /-- It has lost its entries for the channels that it shares with the one that has ended, -/
  entries : ∀ t, t ≠ s → ∀ side id, ((r'.session t).channels side).get? id =
    if ∃ c ∈ r.shared s side.other t, c.id = id then none
    else ((r.session t).channels side).get? id
  /-- and is told about these, each once and as they are listed, and about nothing else. -/
  outbox : ∀ t, t ≠ s → (r'.session t).outbox = (r.session t).outbox ++
    (r.session t).farewells .dst (r.shared s .src t) ++
    (r.session t).farewells .src (r.shared s .dst t)

/-- The session that ends is marked as ended first, which changes nothing that concerns its
channels. -/
theorem InPlace.relieved (h : InPlace r) (hs : s < r.sessions.length) :
    Relieved s (r.marked s) ((Relay.stopChannels s).exec (r.marked s)) :=
  (h.sameChannels (marked_sameChannels r s)).stopChannels (by rwa [length_marked])

theorem channelsOn_marked (r : Relay) (s : SessionRef) (side : Side) :
    (r.marked s).channelsOn s side = r.channelsOn s side := by
  rw [channelsOn, (marked_sameChannels r s).entries, (marked_sameChannels r s).config, channelsOn]

theorem shared_marked (r : Relay) (s : SessionRef) (side : Side) (t : SessionRef) :
    (r.marked s).shared s side t = r.shared s side t := by
  rw [shared, shared, channelsOn_marked]
  rfl

theorem session_marked (hs : s < r.sessions.length) (t : SessionRef) :
    (r.marked s).session t =
      if t = s then { r.session t with running := false } else r.session t := by
  refine (session_modifySession ..).trans (if_congr ?_ rfl rfl)
  exact ⟨fun hst => hst.1.symm, fun hts => ⟨hts.symm, hts ▸ hs⟩⟩

/-- Of a session that ends nothing is left but who it was and its stream; another one lets go of
the channels that it shares with it. -/
theorem InPlace.session_stopSession (h : InPlace r) (hrun : (r.session s).running = true)
    (t : SessionRef) :
    ((Relay.stopSession s).exec r).session t =
      if t = s then
        { r.session s with
          running := false
          loggedIn := false
          srcChannels := .empty
          dstChannels := .empty }
      else
        (r.shared s .dst t).foldl (Session.letGo .src)
          ((r.shared s .src t).foldl (Session.letGo .dst) (r.session t)) := by
  have hs := lt_of_running hrun
  have hrelieved := h.relieved hs
  have hlength := (rel_exec_of_each (stopChannels_sameLogins s) (r.marked s)).length
  have hdetach := sessions_detach
    ((dismiss s).exec ((Relay.stopChannels s).exec (r.marked s))) s
  rw [stopSession_of_running hrun, session, hdetach, ← session, session_dismiss, hlength,
    length_marked]
  by_cases hts : t = s
  · subst hts
    rw [if_pos ⟨rfl, hs⟩, if_pos rfl, hrelieved.session, session_marked hs, if_pos rfl]
  · rw [if_neg fun hst => hts hst.1.symm, if_neg hts, hrelieved.other t hts, shared_marked,
      shared_marked, session_marked hs, if_neg hts]

theorem InPlace.channel_stopSession (h : InPlace r) (hrun : (r.session s).running = true)
    (c : ChannelRef) :
    ((Relay.stopSession s).exec r).channel c =
      if c ∈ r.channelsOf s then stoppedChannel (r.channel c) else r.channel c := by
  have hof : (r.marked s).channelsOf s = r.channelsOf s := by
    rw [channelsOf, channelsOf, channelsOn_marked, channelsOn_marked]
  have hkept (d : ChannelRef) : (r.marked s).channel d = r.channel d := rfl
  rw [stopSession_of_running hrun, channel, channels_leaving, ← channel,
    (h.relieved (lt_of_running hrun)).channel, hof, hkept]

/-- What becomes of the logins when a session ends. -/
theorem InPlace.logins_stopSession (h : InPlace r) (hrun : (r.session s).running = true) :
    ((Relay.stopSession s).exec r).guids =
        (if (r.session s).loggedIn then r.guids.erase (r.session s).guid else r.guids) ∧
      ((Relay.stopSession s).exec r).index =
        (if (r.session s).loggedIn && (r.session s).role.isDiscoverable then
          r.index.erase (r.session s).id
        else r.index) ∧
      ((Relay.stopSession s).exec r).directory =
        if (r.session s).loggedIn && (r.session s).role.isDiscoverable then
          r.directory.enqueue (.del (r.session s).id)
        else r.directory := by
  have hs := lt_of_running hrun
  have hsame := rel_exec_of_each (stopChannels_sameLogins s) (r.marked s)
  have hself := (h.relieved hs).session
  rw [session_marked hs, if_pos rfl] at hself
  obtain ⟨hguids, hindex, hdirectory⟩ :=
    logins_leaving ((Relay.stopChannels s).exec (r.marked s)) s
  rw [hself] at hguids hindex hdirectory
  rw [stopSession_of_running hrun, hguids, hindex, hdirectory, hsame.guids, hsame.index,
    hsame.directory]
  exact ⟨rfl, rfl, rfl⟩

theorem InPlace.stopSession (h : InPlace r) (hattached : Attached r)
    (hrun : (r.session s).running = true) : Departed s r ((Relay.stopSession s).exec r) := by
  have hchannel := h.channel_stopSession hrun
  have hsession := h.session_stopSession hrun
  obtain ⟨hguids, hindex, hdirectory⟩ := h.logins_stopSession hrun
  obtain ⟨-, hlive, hconnections, -⟩ :=
    exec_stopSession_seats hrun ((hattached.live s).mpr hrun)
  have hother (t : SessionRef) (hts : t ≠ s) := (hsession t).trans (if_neg hts)
  constructor
  case stopped =>
    intro c
    rw [hchannel]
    split
    · rename_i hmem
      exact iff_of_true (stopped_stoppedChannel _) (.inr hmem)
    · rename_i hmem
      exact (or_iff_left hmem).symm
  case channel =>
    intro c hc
    rw [hchannel, if_neg hc]
  case uninvolved =>
    intro c hc
    rw [hchannel, if_neg]
    intro hmem
    rcases List.mem_append.mp hmem with hmem | hmem
    · exact hc .src (h.of_mem_channelsOn hmem).2
    · exact hc .dst (h.of_mem_channelsOn hmem).2
  case session => rw [hsession, if_pos rfl]
  case live => exact hlive
  case connections => exact hconnections
  case guids => exact hguids
  case index => exact hindex
  case directory => exact hdirectory
  case identity =>
    intro t hts
    rw [hother t hts, Session.identity_letGoAll, Session.identity_letGoAll]
  case unread =>
    intro t hts
    rw [hother t hts, Session.unread_letGoAll, Session.unread_letGoAll]
  case entries =>
    intro t hts side id
    rw [hother t hts, Session.get?_letGoAll, Session.get?_letGoAll]
    cases side with
    | src =>
        rw [if_neg (c := Side.src = .dst ∧ _) fun h => nomatch h.1]
        exact if_congr (and_iff_right rfl) rfl rfl
    | dst =>
        rw [if_neg (c := Side.dst = .src ∧ _) fun h => nomatch h.1]
        exact if_congr (and_iff_right rfl) rfl rfl
  case outbox =>
    intro t hts
    rw [hother t hts, Session.outbox_letGoAll .src (h.nodup_ids_shared s .dst t),
      Session.outbox_letGoAll .dst (h.nodup_ids_shared s .src t),
      Session.farewells_letGoAll (by simp)]

/-! ## Channel ids that have not come round -/

/-- A channel that two sessions share is entered with both. -/
theorem Sound.mem_shared_iff (h : Sound r) (hn : r.channels.length < 2 ^ 32 - 1) (side : Side)
    (ch : Channel) :
    ch ∈ r.shared s side t ↔ ∃ c, ch = r.channel c ∧ ch.stopped = false ∧
      (ch.endpoint side).session = s ∧ (ch.endpoint side.other).session = t := by
  have hregistered := (h.ordered hn).registered
  simp only [shared, List.mem_filter, List.mem_map, Bool.and_eq_true, Bool.not_eq_true',
    decide_eq_true_eq]
  constructor
  · rintro ⟨⟨c, hc, rfl⟩, hopen, hother⟩
    obtain ⟨id, hid⟩ := mem_channelsOn_iff.mp hc
    obtain ⟨-, -, hsession, -⟩ := (hregistered.entries_get s side id c).mp hid
    exact ⟨c, rfl, hopen, hsession, hother⟩
  · rintro ⟨c, rfl, hopen, hsession, hother⟩
    refine ⟨⟨c, mem_channelsOn_iff.mpr ⟨(r.channel c).id, ?_⟩, rfl⟩, hopen, hother⟩
    exact (hregistered.entries_get s side _ c).mpr ⟨hopen, rfl, hsession, not_false⟩

theorem Sound.farewells_shared (h : Sound r) (hn : r.channels.length < 2 ^ 32 - 1) (side : Side) :
    (r.session t).farewells side.other (r.shared s side t) =
      (r.shared s side t).map (·.farewell side.other) := by
  obtain ⟨hregistered, hattended⟩ := h.ordered hn
  refine Session.farewells_eq_map fun ch hch => ?_
  obtain ⟨c, rfl, hopen, -, rfl⟩ := (h.mem_shared_iff hn side ch).mp hch
  refine ⟨h.settled.running (hattended.loggedIn c side.other hopen), ?_⟩
  refine Registry.mem_keys_iff.mpr ⟨c, ?_⟩
  exact (hregistered.entries_get _ side.other _ c).mpr ⟨hopen, rfl, rfl, not_false⟩

theorem Sound.mem_channelsOf_iff (h : Sound r) (hn : r.channels.length < 2 ^ 32 - 1) :
    c ∈ r.channelsOf s ↔
      (r.channel c).stopped = false ∧ ∃ side, ((r.channel c).endpoint side).session = s := by
  have hregistered := (h.ordered hn).registered
  have hentry (side : Side) : c ∈ r.channelsOn s side ↔
      (r.channel c).stopped = false ∧ ((r.channel c).endpoint side).session = s := by
    rw [mem_channelsOn_iff]
    constructor
    · rintro ⟨id, hid⟩
      obtain ⟨hopen, -, hsession, -⟩ := (hregistered.entries_get s side id c).mp hid
      exact ⟨hopen, hsession⟩
    · rintro ⟨hopen, hsession⟩
      exact ⟨_, (hregistered.entries_get s side _ c).mpr ⟨hopen, rfl, hsession, not_false⟩⟩
  rw [channelsOf, List.mem_append, hentry, hentry, ← and_or_left]
  refine and_congr_right fun _ => ⟨?_, ?_⟩
  · rintro (hsrc | hdst)
    · exact ⟨.src, hsrc⟩
    · exact ⟨.dst, hdst⟩
  · rintro ⟨side, hside⟩
    cases side with
    | src => exact .inl hside
    | dst => exact .inr hside

/-- An entry of another session goes just if the other end of its channel is at the session that
has ended. -/
theorem Departed.get?_iff {r' : Relay} (hd : Departed s r r') (h : Sound r)
    (hn : r.channels.length < 2 ^ 32 - 1) (hts : t ≠ s) (side : Side) (id : ChannelId) :
    ((r'.session t).channels side).get? id = some c ↔
      ((r.session t).channels side).get? id = some c ∧
        ((r.channel c).endpoint side.other).session ≠ s := by
  have hregistered := (h.ordered hn).registered
  rw [hd.entries t hts]
  split
  · rename_i hgone
    obtain ⟨ch, hch, hid⟩ := hgone
    obtain ⟨d, rfl, hopen, hsession, -⟩ := (h.mem_shared_iff hn side.other ch).mp hch
    refine iff_of_false (by simp) fun h => h.2 ?_
    -- The channel under the id is the one that is shared, since both are open.
    obtain ⟨hopen', hid', -⟩ := (hregistered.entries_get t side id c).mp h.1
    rwa [hregistered.id_inj_of_open hn hopen' hopen (hid'.trans hid.symm)]
  · rename_i hkept
    refine (and_iff_left_of_imp fun hget hsession => hkept ?_).symm
    obtain ⟨hopen, hid, hother, -⟩ := (hregistered.entries_get t side id c).mp hget
    have hhere : ((r.channel c).endpoint side.other.other).session = t := by
      rwa [Side.other_other]
    exact ⟨r.channel c,
      (h.mem_shared_iff hn side.other _).mpr ⟨c, rfl, hopen, hsession, hhere⟩, hid⟩

/-! ## Ended for good -/

/-- A session that has ended does not begin again. -/
def StaysOver (s : SessionRef) (r r' : Relay) : Prop :=
  s < r.sessions.length ∧ (r.session s).running = false →
    s < r'.sessions.length ∧ (r'.session s).running = false

theorem call_staysOver (s : SessionRef) (call : Call) : call.op.Each (StaysOver s) := by
  have hbytes (data : Bytes) : (Call.event (.bytes s data)).op.Each (StaysOver s) := by
    refine Each.mono (each_bind (receive_sameSeats s data) fun _ => each_pure none) ?_
    intro r r' h hover
    rw [h.length_sessions, h.session_running]
    exact hover
  by_cases hown : ∃ data, call = .event (.bytes s data)
  · obtain ⟨data, rfl⟩ := hown
    exact hbytes data
  · refine (call_unanswered fun data heq => hown ⟨data, heq⟩).mono fun r r' h hover => ?_
    refine ⟨Nat.lt_of_lt_of_le hover.1 h.length, Bool.eq_false_iff.mpr fun hrun => ?_⟩
    cases hover.2.symm.trans (h.running hover.1 hrun)

/-- Whatever happens after a session has ended, to end it once more does nothing. -/
theorem stopSession_again (hs : s < r.sessions.length) (hover : (r.session s).running = false)
    (tasks : List (List Call)) (turns : List Nat) :
    (stopSession s).exec ((Pool.start r (tasks.map callAll)).play turns).state =
      ((Pool.start r (tasks.map callAll)).play turns).state := by
  refine stopSession_of_ended (Pool.state_play_of_each (I := fun r => _ ∧ _) (R := StaysOver s)
    (fun op hop => ?_) (fun _ _ hI hR => hR hI) ⟨hs, hover⟩ turns).2
  obtain ⟨calls, -, rfl⟩ := List.mem_map.mp hop
  exact each_forM (fun call => each_bind (call_staysOver s call) fun _ => each_pure ()) calls

/-- All that the end of a session does, and what holds from then on. -/
structure DepartedForGood (s : SessionRef) (r r' : Relay) : Prop extends Departed s r r' where
  /-- As long as the channel ids have not come round, a session has entered the channels with an
  end there that are not over, -/
  involved : r.channels.length < 2 ^ 32 - 1 → ∀ c, c ∈ r.channelsOf s ↔
    (r.channel c).stopped = false ∧ ∃ side, ((r.channel c).endpoint side).session = s
  /-- every other session keeps its entries for all other channels, -/
  kept : r.channels.length < 2 ^ 32 - 1 → ∀ t, t ≠ s → ∀ side id c,
    ((r'.session t).channels side).get? id = some c ↔
      ((r.session t).channels side).get? id = some c ∧
        ((r.channel c).endpoint side.other).session ≠ s
  /-- and is told about every channel that it shares with the one that has ended. -/
  told : r.channels.length < 2 ^ 32 - 1 → ∀ t, t ≠ s →
    (r'.session t).outbox = (r.session t).outbox ++
      (r.shared s .src t).map (·.farewell .dst) ++ (r.shared s .dst t).map (·.farewell .src)
  /-- Whatever is called for later, however far it has come: to end the session again does
  nothing. -/
  again : ∀ (tasks : List (List Call)) (turns : List Nat),
    (stopSession s).exec ((Pool.start r' (tasks.map callAll)).play turns).state =
      ((Pool.start r' (tasks.map callAll)).play turns).state

/-- After any run, the end of a session does just this; and if every session has begun on a place
that was taken for it, one place becomes free. -/
theorem session_departs (config : Config) (events : List Event) (s : SessionRef)
    (hrun : ((Relay.after { config } events).session s).running = true) :
    DepartedForGood s (Relay.after { config } events)
        ((stopSession s).exec (Relay.after { config } events)) ∧
      ∀ n, Relay.waiting { config } 0 events = some n →
        ((stopSession s).exec (Relay.after { config } events)).connections + 1 =
          (Relay.after { config } events).connections := by
  have hsound := sound_after config events
  have hd := (inPlace_after config events).stopSession (attached_after config events) hrun
  refine ⟨⟨hd, fun hn c => hsound.mem_channelsOf_iff hn, fun hn t hts side id c =>
    hd.get?_iff hsound hn hts side id, fun hn t hts => ?_, ?_⟩, fun n hwaiting => ?_⟩
  · have hsrc := hsound.farewells_shared (s := s) (t := t) hn .src
    have hdst := hsound.farewells_shared (s := s) (t := t) hn .dst
    rw [hd.outbox t hts]
    exact congr (congrArg _ (congrArg _ hsrc)) hdst
  · refine stopSession_again ?_ ?_
    · rw [(NoneBegun.stopSession s _).length]
      exact lt_of_running hrun
    · rw [hd.session]
  · have hseated := (seated_init config).after hwaiting
    have hplace := hseated.stopSession_connections s
    rwa [if_pos hrun] at hplace

/-- When the session that asked for a channel ends, the one at the other end is told that it is
over. -/
theorem session_departs_linked :
    Relay.waiting {} 0 linked = some 0 ∧ ((Relay.after {} linked).session 1).running = true ∧
      ((Relay.after {} linked).shared 1 .src 0).map Channel.id = [1] ∧
      DepartedForGood 1 (Relay.after {} linked) ((stopSession 1).exec (Relay.after {} linked)) ∧
      ((stopSession 1).exec (Relay.after {} linked)).connections + 1 =
        (Relay.after {} linked).connections := by
  have hwaiting : Relay.waiting {} 0 linked = some 0 := by decide +kernel
  have hrun : ((Relay.after {} linked).session 1).running = true := by decide +kernel
  obtain ⟨hdeparted, hplace⟩ := session_departs {} linked 1 hrun
  exact ⟨hwaiting, hrun, by decide +kernel, hdeparted, hplace 0 hwaiting⟩

end PeerRelay.Relay
