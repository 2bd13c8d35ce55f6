import PeerRelay.Proofs.Relay.Ending

/-!
# A channel joins two sessions

A request for a channel is refused, and nothing is left of it, or a channel is made and then
put in its places: it is listed and registered with both sessions. Under an id that is free
this does not fail.
-/

namespace PeerRelay.Relay

open Steps

variable {r r' r'' : Relay} {s src dst : SessionRef} {id : SessionId}

/-- A channel came into all its places, and nothing else came. -/
structure Joined (src dst : SessionRef) (r r' : Relay) : Prop where
  length : r'.channels.length = r.channels.length + 1
  nextChannelId : r'.nextChannelId = r.nextChannelId + 1
  terms : ∀ d, (r'.channel d).terms =
    if d = r.channels.length then (r.newChannel src dst).terms else (r.channel d).terms
  stopped : ∀ d, (r'.channel d).stopped =
    if d = r.channels.length then false else (r.channel d).stopped
  listed : r.listed.insert? r.nextChannelId r.channels.length = some r'.listed
  slots : r'.slots = r.slots + 1
  entries : ∀ s side,
    if s = (r.newChannel src dst).terms.session side then
      ((r.session s).channels side).insert? r.nextChannelId r.channels.length =
        some ((r'.session s).channels side)
    else (r'.session s).channels side = (r.session s).channels side

theorem Joined.sameChannels (h : Joined src dst r r') (hs : SameChannels r' r'') :
    Joined src dst r r'' where
  length := hs.length.trans h.length
  nextChannelId := hs.nextChannelId.trans h.nextChannelId
  terms d := (hs.terms d).trans (h.terms d)
  stopped d := (hs.stopped d).trans (h.stopped d)
  listed := by
    rw [hs.listed]
    exact h.listed
  slots := hs.slots.trans h.slots
  entries s side := by
    rw [hs.entries]
    exact h.entries s side

/-! ## The steps of creating a channel -/

/-- The id of the next channel is a new one. -/
theorem Registered.ne_nextChannelId {emptied : SessionRef → Side → Prop}
    (h : Registered r emptied) (hn : r.channels.length < 2 ^ 32 - 1) {c : ChannelRef}
    (hc : (r.channel c).stopped = false) : (r.channel c).id ≠ r.nextChannelId := by
  have hlt := lt_of_stopped_eq_false hc
  have hbound : r.channels.length < 2 ^ 32 := Nat.lt_of_lt_of_le hn (Nat.sub_le _ _)
  rw [h.id_eq c hlt, h.next_eq]
  intro heq
  exact absurd (channelIdAt_inj (Nat.lt_trans hlt hbound) hbound heq) (Nat.ne_of_lt hlt)

theorem Registered.nextChannelId_not_listed {emptied : SessionRef → Side → Prop}
    (h : Registered r emptied) (hn : r.channels.length < 2 ^ 32 - 1) :
    r.nextChannelId ∉ r.listed.keys := by
  rw [Registry.mem_keys_iff]
  rintro ⟨c, hc⟩
  obtain ⟨ho, heq⟩ := (h.listed_get _ c).mp hc
  exact h.ne_nextChannelId hn ho heq

theorem Registered.nextChannelId_not_entered {emptied : SessionRef → Side → Prop}
    (h : Registered r emptied) (hn : r.channels.length < 2 ^ 32 - 1) (s : SessionRef)
    (side : Side) : r.nextChannelId ∉ ((r.session s).channels side).keys := by
  rw [Registry.mem_keys_iff]
  rintro ⟨c, hc⟩
  obtain ⟨ho, heq, -⟩ := (h.entries_get s side _ c).mp hc
  exact h.ne_nextChannelId hn ho heq

theorem run_register {side : Side} {channelId : ChannelId} {c : ChannelRef}
    {entries : Registry ChannelId ChannelRef}
    (h : ((r.session s).channels side).insert? channelId c = some entries)
    (hrun : (r.session s).running = true) :
    (register s side channelId c).run r = (true, r.withEntries s side entries) := by
  have henter : (enter s side channelId c).run r = (true, r.withEntries s side entries) := by
    simp only [enter, run_atomic, h, withEntries]
  have hstill : ((r.withEntries s side entries).session s).running = true :=
    ((sameLogins_withEntries ..).running s).trans hrun
  simp only [register, run_bind, henter, if_true, isRunning, run_read, hstill, run_pure]

/-- Two sessions that run and do not have the id yet are joined. -/
theorem run_joinSessions {c : ChannelRef} {channel : Channel}
    {srcEntries dstEntries : Registry ChannelId ChannelRef} (hc : r.channel c = channel)
    (hsrc : (r.session channel.src.session).running = true)
    (hdst : (r.session channel.dst.session).running = true)
    (hsrcEntries : ((r.session channel.src.session).channels .src).insert? channel.id c =
      some srcEntries)
    (hdstEntries : ((r.session channel.dst.session).channels .dst).insert? channel.id c =
      some dstEntries) :
    (joinSessions c).run r =
      (.ok (), (r.withEntries channel.src.session .src srcEntries).withEntries
        channel.dst.session .dst dstEntries) := by
  have hfirst := run_register hsrcEntries hsrc
  have hkept : ((r.withEntries channel.src.session .src srcEntries).session
      channel.dst.session).channels .dst = (r.session channel.dst.session).channels .dst := by
    rw [channels_withEntries (lt_of_running hsrc), if_neg (by simp)]
  have hstill : ((r.withEntries channel.src.session .src srcEntries).session
      channel.dst.session).running = true :=
    ((sameLogins_withEntries ..).running _).trans hdst
  have hsecond := run_register (hkept ▸ hdstEntries) hstill
  simp only [joinSessions, run_bind, run_read, hc, hfirst, if_true, hsecond, run_pure]

theorem run_findDestination (r : Relay) (id : SessionId) :
    (findDestination id).run r =
      ((r.index.get? id).filter fun s => (r.session s).running, r) := rfl

/-- A relay in which a channel was made and listed that no session knows of yet. -/
def made (src dst : SessionRef) (listed : Registry ChannelId ChannelRef) (r : Relay) : Relay :=
  { addChannel r.nextChannelId src dst r with
    nextChannelId := r.nextChannelId + 1
    slots := r.slots + 1
    listed }

theorem channel_made (r : Relay) (src dst : SessionRef) (listed : Registry ChannelId ChannelRef)
    (d : ChannelRef) :
    (r.made src dst listed).channel d =
      if d = r.channels.length then r.newChannel src dst else r.channel d :=
  channel_append r (r.newChannel src dst) d

theorem joined_made {listed srcEntries dstEntries : Registry ChannelId ChannelRef}
    (hsrc : src < r.sessions.length) (hdst : dst < r.sessions.length)
    (hlisted : r.listed.insert? r.nextChannelId r.channels.length = some listed)
    (hsrcEntries : ((r.session src).channels .src).insert? r.nextChannelId r.channels.length =
      some srcEntries)
    (hdstEntries : ((r.session dst).channels .dst).insert? r.nextChannelId r.channels.length =
      some dstEntries) :
    Joined src dst r (((r.made src dst listed).withEntries src .src srcEntries).withEntries
      dst .dst dstEntries) := by
  generalize hr' : ((r.made src dst listed).withEntries src .src srcEntries).withEntries
      dst .dst dstEntries = r'
  have hchannel (d : ChannelRef) : r'.channel d =
      if d = r.channels.length then r.newChannel src dst else r.channel d := by
    rw [← hr']
    exact channel_made r src dst listed d
  have hentries (s : SessionRef) (side : Side) : (r'.session s).channels side =
      if s = dst ∧ side = .dst then dstEntries
      else if s = src ∧ side = .src then srcEntries else (r.session s).channels side := by
    have hdst' :
        dst < ((r.made src dst listed).withEntries src .src srcEntries).sessions.length := by
      rw [(sameLogins_withEntries ..).length]
      exact hdst
    have hsrc' : src < (r.made src dst listed).sessions.length := hsrc
    rw [← hr', channels_withEntries hdst', channels_withEntries hsrc']
    rfl
  refine ⟨?_, ?_, fun d => ?_, fun d => ?_, ?_, ?_, fun s side => ?_⟩
  · rw [← hr']
    simp [withEntries, made, addChannel, modifySession]
  · rw [← hr']
    rfl
  · rw [hchannel]
    split <;> rfl
  · rw [hchannel]
    split <;> rfl
  · rw [← hr']
    exact hlisted
  · rw [← hr']
    rfl
  · cases side with
    | src =>
        have hentry : (r'.session s).channels .src =
            if s = src then srcEntries else (r.session s).channels .src := by
          simp [hentries]
        show if s = src then _ else _
        rw [hentry]
        by_cases hs : s = src
        · subst hs
          rw [if_pos rfl, if_pos rfl]
          exact hsrcEntries
        · rw [if_neg hs, if_neg hs]
    | dst =>
        have hentry : (r'.session s).channels .dst =
            if s = dst then dstEntries else (r.session s).channels .dst := by
          simp [hentries]
        show if s = dst then _ else _
        rw [hentry]
        by_cases hs : s = dst
        · subst hs
          rw [if_pos rfl, if_pos rfl]
          exact hdstEntries
        · rw [if_neg hs, if_neg hs]

/-! ## What becomes of a request -/

/-- What is left of an attempt that fails before a channel was made: nothing. -/
theorem createChannel_of_refused {refusal : Refusal} (hslot :
      r.config.maxChannels = 0 ∨ r.slots < r.config.maxChannels)
    (hbind : (bindChannel src id).run { r with slots := r.slots + 1 } =
      (.error refusal, { r with slots := r.slots + 1 })) :
    (createChannel src id).run r = (.error refusal, r) := by
  have hreserve : reserveSlot.run r = (true, { r with slots := r.slots + 1 }) := by
    simp only [reserveSlot, run_atomic, if_pos hslot]
  simp only [createChannel, run_bind, hreserve, if_true, hbind, releaseSlot, run_modify, run_pure,
    Nat.add_sub_cancel]

theorem findDestination_eq_some (h : ((findDestination id).run r).1 = some dst) :
    r.index.get? id = some dst ∧ (r.session dst).running = true :=
  Option.filter_eq_some_iff.mp h

/-- Either nothing happens, or the next channel is made to a session that runs. -/
theorem bindChannel_cases {R : Relay → Relay → Prop} [Std.Refl R] (r : Relay) (src : SessionRef)
    (id : SessionId) :
    (∃ refusal, (bindChannel src id).run r = (.error refusal, r) ∧
        (bindChannel src id).Along R r) ∨
      ∃ dst, r.index.get? id = some dst ∧ (r.session dst).running = true ∧ dst ≠ src ∧
        (bindChannel src id).run r =
          (.ok (r.channels.length, dst), (openChannel src dst).exec r) ∧
        ((openChannel src dst).Along R r → (bindChannel src id).Along R r) := by
  have hread : (findDestination id).Along R r := (each_read _).along r
  cases hfind : ((findDestination id).run r).1 with
  | none =>
      refine .inl ⟨.notFound id, ?_, ?_⟩
      · simp only [bindChannel, run_bind, hfind, run_pure]
        rfl
      · refine along_bind hread ?_
        rw [hfind]
        exact along_pure _ _
  | some dst =>
      obtain ⟨hfound, hdst⟩ := findDestination_eq_some hfind
      by_cases hne : dst = src
      · refine .inl ⟨.selfProxy, ?_, ?_⟩
        · simp only [bindChannel, run_bind, hfind, if_pos hne, run_pure]
          rfl
        · refine along_bind hread ?_
          rw [hfind]
          dsimp only
          rw [if_pos hne]
          exact along_pure _ _
      · refine .inr ⟨dst, hfound, hdst, hne, ?_, fun hopen => ?_⟩
        · simp only [bindChannel, run_bind, hfind, if_neg hne, run_pure]
          rfl
        · refine along_bind hread ?_
          rw [hfind]
          dsimp only
          rw [if_neg hne]
          exact along_bind hopen (along_pure _ _)

/-- The channel that was made last is the next one, with the next id. -/
theorem channel_openChannel (r : Relay) (src dst : SessionRef) :
    ((openChannel src dst).exec r).channel r.channels.length = r.newChannel src dst :=
  (channel_append r (r.newChannel src dst) _).trans (if_pos rfl)

theorem length_openChannel (r : Relay) (src dst : SessionRef) :
    ((openChannel src dst).exec r).channels.length = r.channels.length + 1 :=
  List.length_append ..

/-- A relay on which a slot was taken and a channel was made. -/
def opened (src dst : SessionRef) (r : Relay) : Relay :=
  (openChannel src dst).exec (reserveSlot.exec r)

/-- A request is refused with nothing left behind, or a channel is made that is then put in its
places. What every step of that is related by, the whole request is. -/
theorem createChannel_refused_or_placed {R : Relay → Relay → Prop} [Std.Refl R] (r : Relay)
    (src : SessionRef) (id : SessionId) (hreserve : reserveSlot.Each R)
    (hrelease : releaseSlot.Each R) :
    (∃ refusal, (createChannel src id).run r = (.error refusal, r) ∧
        (createChannel src id).Along R r) ∨
      ∃ dst, (r.config.maxChannels = 0 ∨ r.slots < r.config.maxChannels) ∧
        r.index.get? id = some dst ∧ (r.session dst).running = true ∧ dst ≠ src ∧
        (createChannel src id).run r =
          (placeChannel src r.channels.length dst).run (r.opened src dst) ∧
        ((openChannel src dst).Along R (reserveSlot.exec r) →
          (placeChannel src r.channels.length dst).Along R (r.opened src dst) →
          (createChannel src id).Along R r) := by
  by_cases hslot : r.config.maxChannels = 0 ∨ r.slots < r.config.maxChannels
  · have htaken : reserveSlot.run r = (true, { r with slots := r.slots + 1 }) := by
      simp only [reserveSlot, run_atomic, if_pos hslot]
    have hexec : reserveSlot.exec r = { r with slots := r.slots + 1 } := congrArg Prod.snd htaken
    rcases bindChannel_cases (R := R) (reserveSlot.exec r) src id with
      ⟨refusal, hrun, hbind⟩ | ⟨dst, hfound, hdst, hne, hrun, hbind⟩ <;> rw [hexec] at hrun hbind
    · refine .inl ⟨refusal, createChannel_of_refused hslot hrun, ?_⟩
      refine along_bind (hreserve.along r) ?_
      rw [htaken, hexec]
      refine along_bind hbind ?_
      rw [hrun]
      exact along_bind (hrelease.along _) (along_pure _ _)
    · rw [hexec] at hfound hdst
      have hopened : (openChannel src dst).exec { r with slots := r.slots + 1 } =
          r.opened src dst := by rw [opened, hexec]
      rw [hopened] at hrun
      refine .inr ⟨dst, hslot, hfound, hdst, hne, ?_, fun hopen hplace => ?_⟩
      · simp only [createChannel, run_bind, htaken, if_true, hrun]
        rfl
      · rw [hexec] at hopen
        refine along_bind (hreserve.along r) ?_
        rw [htaken, hexec]
        refine along_bind (hbind hopen) ?_
        rw [exec, hrun]
        exact hplace
  · refine .inl ⟨.channelLimit r.config.maxChannels, ?_, ?_⟩ <;>
      have htaken : reserveSlot.run r = (false, r) := by
        simp only [reserveSlot, run_atomic, if_neg hslot]
    · simp only [createChannel, run_bind, htaken, Bool.false_eq_true, if_false, run_read, run_pure]
    · refine along_bind (hreserve.along r) ?_
      rw [htaken]
      exact along_read (along_pure _ _)

/-- What a request does that is not refused: the channel is made, listed under an id that is
free there, and entered with both of its sessions, which have not entered the id yet. -/
theorem run_createChannel_of_fresh {listed srcEntries dstEntries : Registry ChannelId ChannelRef}
    (hlisted : r.listed.insert? r.nextChannelId r.channels.length = some listed)
    (hsrcEntries : ((r.session src).channels .src).insert? r.nextChannelId r.channels.length =
      some srcEntries)
    (hdstEntries : ((r.session dst).channels .dst).insert? r.nextChannelId r.channels.length =
      some dstEntries)
    (hslot : r.config.maxChannels = 0 ∨ r.slots < r.config.maxChannels)
    (hsrc : (r.session src).running = true) (hdst : (r.session dst).running = true)
    (hne : dst ≠ src) (hfound : r.index.get? id = some dst) :
    (createChannel src id).run r = (.ok (r.channels.length, dst),
      ((r.made src dst listed).withEntries src .src srcEntries).withEntries
        dst .dst dstEntries) := by
  have hreserve : reserveSlot.run r = (true, { r with slots := r.slots + 1 }) := by
    simp only [reserveSlot, run_atomic, if_pos hslot]
  have hbind : (bindChannel src id).run { r with slots := r.slots + 1 } =
      (.ok (r.channels.length, dst), r.made src dst r.listed) := by
    have hfind : ((({ r with slots := r.slots + 1 } : Relay).index.get? id).filter fun s =>
        (Relay.session { r with slots := r.slots + 1 } s).running) = some dst := by
      simp only [hfound, Option.filter_some]
      exact if_pos hdst
    simp only [bindChannel, run_bind, run_findDestination, hfind, if_neg hne]
    rfl
  have hchannel (listed : Registry ChannelId ChannelRef) :
      (r.made src dst listed).channel r.channels.length = r.newChannel src dst :=
    (channel_made ..).trans (if_pos rfl)
  have hid : (idOfChannel r.channels.length).run (r.made src dst r.listed) =
      (r.nextChannelId, r.made src dst r.listed) := by
    simp only [idOfChannel, run_read, hchannel]
    rfl
  have hlist : (listChannel r.nextChannelId r.channels.length).run (r.made src dst r.listed) =
      (true, r.made src dst listed) := by
    simp only [listChannel, run_atomic]
    rw [show (r.made src dst r.listed).listed.insert? r.nextChannelId r.channels.length =
      some listed from hlisted]
    rfl
  have hjoin : (joinSessions r.channels.length).run (r.made src dst listed) =
      (.ok (), ((r.made src dst listed).withEntries src .src srcEntries).withEntries
        dst .dst dstEntries) :=
    run_joinSessions (hchannel listed) hsrc hdst hsrcEntries hdstEntries
  simp only [createChannel, run_bind, hreserve, if_true, hbind, hid, hlist, hjoin, run_pure]

/-- Two sessions that run can be joined under an id that is not listed and that neither has
entered, and nobody notices yet. -/
theorem createChannel_of_fresh (hfresh : r.nextChannelId ∉ r.listed.keys)
    (hsrcFree : r.nextChannelId ∉ ((r.session src).channels .src).keys)
    (hdstFree : r.nextChannelId ∉ ((r.session dst).channels .dst).keys)
    (hslot : r.config.maxChannels = 0 ∨ r.slots < r.config.maxChannels)
    (hsrc : (r.session src).running = true) (hdst : (r.session dst).running = true)
    (hne : dst ≠ src) (hfound : r.index.get? id = some dst) :
    ((createChannel src id).run r).1 = .ok (r.channels.length, dst) ∧
      Joined src dst r ((createChannel src id).exec r) ∧
      ∀ s, (((createChannel src id).exec r).session s).outbox = (r.session s).outbox := by
  obtain ⟨listed, hlisted⟩ := Registry.insert?_of_not_mem hfresh r.channels.length
  obtain ⟨srcEntries, hsrcEntries⟩ := Registry.insert?_of_not_mem hsrcFree r.channels.length
  obtain ⟨dstEntries, hdstEntries⟩ := Registry.insert?_of_not_mem hdstFree r.channels.length
  have houtbox (r : Relay) (s t : SessionRef) (side : Side)
      (entries : Registry ChannelId ChannelRef) :
      ((r.withEntries s side entries).session t).outbox = (r.session t).outbox :=
    session_modifySession_congr Session.outbox (fun _ => by cases side <;> rfl) t
  rw [exec, run_createChannel_of_fresh hlisted hsrcEntries hdstEntries hslot hsrc hdst hne hfound]
  refine ⟨rfl, joined_made (lt_of_running hsrc) (lt_of_running hdst) hlisted hsrcEntries
    hdstEntries, fun s => ?_⟩
  rw [houtbox, houtbox]
  rfl

/-- Two sessions that run can be joined. -/
theorem createChannel_of_found (h : Registered r Complete)
    (hn : r.channels.length < 2 ^ 32 - 1)
    (hslot : r.config.maxChannels = 0 ∨ r.slots < r.config.maxChannels)
    (hsrc : (r.session src).running = true) (hdst : (r.session dst).running = true)
    (hne : dst ≠ src) (hfound : r.index.get? id = some dst) :
    ((createChannel src id).run r).1 = .ok (r.channels.length, dst) ∧
      Joined src dst r ((createChannel src id).exec r) := by
  obtain ⟨hrun, hjoined, -⟩ := createChannel_of_fresh (h.nextChannelId_not_listed hn)
    (h.nextChannelId_not_entered hn src .src) (h.nextChannelId_not_entered hn dst .dst) hslot hsrc
    hdst hne hfound
  exact ⟨hrun, hjoined⟩

/-- Either the attempt is refused and nothing is left of it, or the session that is known
by the id is joined to the one that asks. -/
theorem createChannel_cases (h : Registered r Complete) (hn : r.channels.length < 2 ^ 32 - 1)
    (hsrc : (r.session src).running = true) (id : SessionId) :
    (∃ refusal, (createChannel src id).run r = (.error refusal, r)) ∨
      ∃ dst, r.index.get? id = some dst ∧ dst ≠ src ∧
        ((createChannel src id).run r).1 = .ok (r.channels.length, dst) ∧
        Joined src dst r ((createChannel src id).exec r) := by
  rcases createChannel_refused_or_placed (R := Lasting) r src id reserveSlot_lasting
      releaseSlot_lasting with
    ⟨refusal, hrun, -⟩ | ⟨dst, hslot, hfound, hdst, hne, -, -⟩
  · exact .inl ⟨refusal, hrun⟩
  · exact .inr ⟨dst, hfound, hne, createChannel_of_found h hn hslot hsrc hdst hne hfound⟩

/-! ## The invariant afterwards -/

section Joined

variable (h : Registered r Complete) (hn : r.channels.length < 2 ^ 32 - 1)
  (hj : Joined src dst r r')
include hj

theorem Joined.channel_id (d : ChannelRef) : (r'.channel d).id =
    if d = r.channels.length then r.nextChannelId else (r.channel d).id := by
  have hterms := congrArg Channel.Terms.id (hj.terms d)
  by_cases hd : d = r.channels.length
  · rw [if_pos hd] at hterms ⊢
    exact hterms
  · rw [if_neg hd] at hterms ⊢
    exact hterms

include h hn

/-- A registry of open channels that takes up the new one is one afterwards. -/
theorem Registered.get?_insert? {entries entries' : Registry ChannelId ChannelRef}
    (holds holds' : ChannelRef → Prop)
    (hget : ∀ id c, entries.get? id = some c ↔
      (r.channel c).stopped = false ∧ (r.channel c).id = id ∧ holds c)
    (hinsert : entries.insert? r.nextChannelId r.channels.length = some entries')
    (hnew : holds' r.channels.length) (hold : ∀ c, c ≠ r.channels.length → (holds' c ↔ holds c))
    (id : ChannelId) (c : ChannelRef) :
    entries'.get? id = some c ↔
      (r'.channel c).stopped = false ∧ (r'.channel c).id = id ∧ holds' c := by
  rw [Registry.get?_of_insert? hinsert, hj.stopped, hj.channel_id]
  by_cases hc : c = r.channels.length
  · subst hc
    rw [if_pos rfl, if_pos rfl]
    by_cases hid : id = r.nextChannelId
    · rw [if_pos hid]
      constructor
      · intro _
        exact ⟨rfl, hid.symm, hnew⟩
      · intro _
        rfl
    · rw [if_neg hid, hget]
      constructor
      · rintro ⟨ho, -⟩
        exact absurd (lt_of_stopped_eq_false ho) (Nat.lt_irrefl _)
      · rintro ⟨-, heq, -⟩
        exact absurd heq.symm hid
  · rw [if_neg hc, if_neg hc, hold c hc, ← hget]
    by_cases hid : id = r.nextChannelId
    · rw [if_pos hid]
      constructor
      · intro heq
        exact absurd (Option.some.inj heq).symm hc
      · intro hfound
        obtain ⟨ho, heq, -⟩ := (hget id c).mp hfound
        exact absurd (heq.trans hid) (h.ne_nextChannelId hn ho)
    · rw [if_neg hid]

theorem Registered.joined : Registered r' Complete := by
  constructor
  · intro c hc
    rw [hj.channel_id]
    split
    · subst c
      exact h.next_eq
    · rename_i hne
      rw [hj.length] at hc
      exact h.id_eq c (Nat.lt_of_le_of_ne (Nat.le_of_lt_succ hc) hne)
  · rw [hj.nextChannelId, hj.length, h.next_eq, channelIdAt_succ]
  · intro id c
    have hlisted := h.get?_insert? hn hj (fun _ => True) (fun _ => True)
      (by simpa using h.listed_get) hj.listed trivial (fun _ _ => Iff.rfl) id c
    simpa using hlisted
  · intro s side id c
    have hentries := hj.entries s side
    have hsession (d : ChannelRef) : (r'.channel d).terms.session side =
        if d = r.channels.length then (r.newChannel src dst).terms.session side
        else (r.channel d).terms.session side := by
      rw [hj.terms]
      split <;> rfl
    by_cases hs : s = (r.newChannel src dst).terms.session side
    · rw [if_pos hs] at hentries
      refine h.get?_insert? hn hj
        (fun d => (r.channel d).terms.session side = s ∧ ¬ Complete s side)
        (fun d => (r'.channel d).terms.session side = s ∧ ¬ Complete s side)
        (h.entries_get s side) hentries ?_ (fun d hd => ?_) id c
      · rw [hsession, if_pos rfl]
        exact ⟨hs.symm, not_false⟩
      · rw [hsession, if_neg hd]
    · rw [if_neg hs] at hentries
      rw [hentries, h.entries_get, hj.stopped, hj.channel_id, hsession]
      by_cases hc : c = r.channels.length
      · subst hc
        rw [if_pos rfl, if_pos rfl, if_pos rfl]
        constructor
        · rintro ⟨ho, -⟩
          exact absurd (lt_of_stopped_eq_false ho) (Nat.lt_irrefl _)
        · rintro ⟨-, -, heq, -⟩
          exact absurd heq.symm hs
      · rw [if_neg hc, if_neg hc, if_neg hc]
  · rw [hj.slots, Registry.size_of_insert? hj.listed, h.slots_eq]

end Joined

end PeerRelay.Relay
