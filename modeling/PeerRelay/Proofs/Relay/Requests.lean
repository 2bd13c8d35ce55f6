import PeerRelay.Proofs.Relay.AnnouncementRuns

/-!
# What a request for a channel leads to

A client that asks for a channel is joined to the session that it names, or it is told that it
is not. Which of the two it is can be read off the sessions and the list of channels. A request
that is granted makes one channel, and each of the two clients learns the end that faces it; one
that is refused leaves nothing behind but the answer.
-/

namespace PeerRelay.Relay

open Steps
open Wire (Frame Header ResultCode)

variable {r r' : Relay} {s t dst : SessionRef} {c : ChannelRef}
variable {header : Header} {destination : SessionId}

/-- A session may be joined to another that it names by an id: it may ask for channels and is
logged in, there is room for another channel, and the other is somebody else who is logged in
under the id for everyone to find. -/
structure Grantable (r : Relay) (s : SessionRef) (destination : SessionId) (dst : SessionRef) :
    Prop where
  role : (r.session s).role = .client ∨ (r.session s).role = .either
  loggedIn : (r.session s).loggedIn = true
  room : r.config.maxChannels = 0 ∨ r.listed.size < r.config.maxChannels
  other : dst ≠ s
  destination_loggedIn : (r.session dst).loggedIn = true
  destination_role : (r.session dst).role.isDiscoverable = true
  destination_id : (r.session dst).id = destination

/-- A channel joins two sessions, and each of their clients was told of the end that faces it. -/
structure Connected (s dst : SessionRef) (header : Header) (channel : Channel) (r r' : Relay) :
    Prop where
  /-- One channel was made, which waits for its peers, -/
  channels : r'.channels = r.channels ++ [channel]
  state : channel.state = .authPending
  /-- with an id that is greater than all before. -/
  newest : ∀ c < r.channels.length, (r.channel c).id < channel.id
  /-- Its ends face the two sessions, each from a socket of its own. -/
  src_end : channel.src = { r.bindEnd s r.socketsBound with loop := .authenticating }
  dst_end : channel.dst = { r.bindEnd dst (r.socketsBound + 1) with loop := .authenticating }
  listed : r.listed.insert? channel.id r.channels.length = some r'.listed
  slots : r'.slots = r.slots + 1
  /-- The client that asked is told where the end at its own session is, -/
  requester : ∃ entries, (r.session s).srcChannels.insert? channel.id r.channels.length =
      some entries ∧
    r'.session s = ({ r.session s with srcChannels := entries }).push header
      (.proxy .success channel.id channel.src.relay.ip.wireIpv4 channel.src.relay.port)
  /-- and the other one where the end at its session is, who asked, and where that one is in
  its own network. -/
  destination : ∃ entries, (r.session dst).dstChannels.insert? channel.id r.channels.length =
      some entries ∧
    r'.session dst = ({ r.session dst with dstChannels := entries }).push header
      (.access (r.session s).id channel.id channel.dst.relay.ip.wireIpv4 channel.dst.relay.port
        (r.session s).privateAddr)
  /-- Everybody else is as before, -/
  others : ∀ t, t ≠ s → t ≠ dst → r'.session t = r.session t
  /-- and so is what is kept of the logins. -/
  logins : SameLogins r r'

/-- What a request for a channel to the session with an id leads to. -/
structure ProxyServed (s : SessionRef) (header : Header) (destination : SessionId)
    (r r' : Relay) : Prop where
  /-- The client is answered once, and is told of success if it may be joined to a session. -/
  answered : ∃ result channel addr port,
    (r'.session s).outbox = (r.session s).outbox ++
      [⟨header, .proxy result channel addr port⟩] ∧
    (result = .success ↔ ∃ dst, Grantable r s destination dst)
  granted : ∀ dst, Grantable r s destination dst →
    ∃ channel, Connected s dst header channel r r'
  /-- A request that is refused leaves nothing behind but the answer. -/
  refused : (∀ dst, ¬ Grantable r s destination dst) →
    ∃ result, result ≠ .success ∧
      r' = r.modifySession s (·.push header (.proxy result 0 .unspecified 0))

/-! ## A request that is refused -/

theorem mayOriginate_iff (role : Role) :
    role.mayOriginate = true ↔ role = .client ∨ role = .either := by
  cases role <;> decide

/-- A request is refused with nothing left behind, or its client may ask for channels, is logged
in, and has a channel created for it. -/
theorem exec_serveProxy_refused_or_admitted (r : Relay) (s : SessionRef) (header : Header)
    (destination : SessionId) :
    (∃ result, result ≠ .success ∧ (serveProxy s header destination).exec r =
        r.modifySession s (·.push header (.proxyFailure result))) ∨
      (r.session s).role.mayOriginate = true ∧ (r.session s).loggedIn = true ∧
        ∃ dst, (r.config.maxChannels = 0 ∨ r.slots < r.config.maxChannels) ∧
          r.index.get? destination = some dst ∧ (r.session dst).running = true ∧ dst ≠ s := by
  cases hrole : (r.session s).role.mayOriginate with
  | false =>
      refine .inl ⟨.forbidden, by decide, ?_⟩
      rw [serveProxy, exec_bind]
      simp only [run_read, hrole, Bool.not_false, if_true]
      rfl
  | true =>
      cases hin : (r.session s).loggedIn with
      | false =>
          refine .inl ⟨.notLoggedIn, by decide, ?_⟩
          rw [serveProxy, exec_bind]
          simp only [run_read, hrole, hin, Bool.not_true, Bool.not_false, Bool.false_eq_true,
            if_false, if_true]
          rfl
      | true =>
          rcases createChannel_refused_or_placed (R := Lasting) r s destination
              reserveSlot_lasting releaseSlot_lasting with
            ⟨refusal, hrun, -⟩ | ⟨dst, hslot, hfound, hdst, hne, -, -⟩
          · refine .inl ⟨refusal.result, refusal.result_ne_success, ?_⟩
            rw [serveProxy, exec_bind]
            simp only [run_read, hrole, hin, Bool.not_true, Bool.false_eq_true, if_false]
            rw [exec_bind, show (read (·.session s) : Op Session).exec r = r from rfl, hrun]
            show (push s header _).exec ((createChannel s destination).exec r) = _
            rw [show (createChannel s destination).exec r = r from congrArg Prod.snd hrun]
            rfl
          · exact .inr ⟨rfl, rfl, dst, hslot, hfound, hdst, hne⟩

/-! ## A request that is granted -/

theorem sessions_startChannel (c : ChannelRef) (r : Relay) :
    ((startChannel c).exec r).sessions = r.sessions := by
  show (if _ then r else _ : Relay).sessions = _
  split
  · rfl
  · rw [sessions_armEvery, sessions_armEvery]
    rfl

theorem channels_armEvery (period : Option Nat) (duty : Duty) (r : Relay) :
    (r.armEvery period duty).channels = r.channels := by
  unfold armEvery
  split <;> rfl

theorem channels_startChannel (c : ChannelRef) (r : Relay) :
    ((startChannel c).exec r).channels = r.channels.modify c Channel.start := by
  show (if _ then r else _ : Relay).channels = _
  split
  · rename_i h
    have hsame : Channel.start (r.channel c) = r.channel c := if_pos h
    exact (congrArg Relay.channels (modifyChannel_of_eq hsame)).symm
  · rw [channels_armEvery, channels_armEvery]
    rfl

/-- A change of the last channel. -/
theorem modify_last {α : Type} (xs : List α) (x : α) (f : α → α) :
    (xs ++ [x]).modify xs.length f = xs ++ [f x] :=
  List.modifyTailIdx_add (List.modifyHead f) 0 xs [x]

theorem session_withEntries (hs : s < r.sessions.length) (side : Side)
    (entries : Registry ChannelId ChannelRef) (t : SessionRef) :
    (r.withEntries s side entries).session t =
      if t = s then (r.session s).withChannels side entries else r.session t := by
  rw [withEntries, session_modifySession]
  by_cases hts : t = s
  · subst hts
    rw [if_pos ⟨rfl, hs⟩, if_pos rfl]
  · rw [if_neg fun h => hts h.1.symm, if_neg hts]

theorem session_push (hs : s < r.sessions.length) (header : Header) (response : Response)
    (t : SessionRef) :
    ((push s header response).exec r).session t =
      if t = s then (r.session s).push header response else r.session t := by
  show (r.modifySession s _).session t = _
  rw [session_modifySession]
  by_cases hts : t = s
  · subst hts
    rw [if_pos ⟨rfl, hs⟩, if_pos rfl]
  · rw [if_neg fun h => hts h.1.symm, if_neg hts]

/-- Both sessions of a channel get their pushes, whoever else there is. -/
theorem session_pushBoth (header : Header) (hs : s < r.sessions.length)
    (hdst : dst < r.sessions.length) (hne : dst ≠ s) (channel : Channel) (session : Session)
    (t : SessionRef) :
    ((pushBoth header s dst channel session).exec r).session t =
      if t = s then (r.session s).push header (.proxy .success channel.id
        channel.src.relay.ip.wireIpv4 channel.src.relay.port)
      else if t = dst then (r.session dst).push header (.access session.id channel.id
        channel.dst.relay.ip.wireIpv4 channel.dst.relay.port session.privateAddr)
      else r.session t := by
  rw [pushBoth, exec_bind, session_push (Nat.lt_of_lt_of_eq hs (List.length_modify ..).symm),
    session_push hdst, session_push hdst, if_neg hne.symm]

/-- A request that may be granted is. -/
theorem connected_serveProxy (h : Ordered r) (hset : Settled r)
    (hn : r.channels.length < 2 ^ 32 - 1) (hg : Grantable r s destination dst) (header : Header) :
    Connected s dst header (r.newChannel s dst).start r
      ((serveProxy s header destination).exec r) := by
  have hrun := hset.running hg.loggedIn
  have hdst := hset.running hg.destination_loggedIn
  have hfound := (hset.logins.index_get _ _).mpr
    ⟨hg.destination_loggedIn, hg.destination_role, hg.destination_id⟩
  have hslot : r.config.maxChannels = 0 ∨ r.slots < r.config.maxChannels := by
    rw [h.registered.slots_eq]
    exact hg.room
  obtain ⟨listed, hlisted⟩ :=
    Registry.insert?_of_not_mem (h.registered.nextChannelId_not_listed hn) r.channels.length
  obtain ⟨srcEntries, hsrcEntries⟩ := Registry.insert?_of_not_mem
    (h.registered.nextChannelId_not_entered hn s .src) r.channels.length
  obtain ⟨dstEntries, hdstEntries⟩ := Registry.insert?_of_not_mem
    (h.registered.nextChannelId_not_entered hn dst .dst) r.channels.length
  have hcreate := run_createChannel_of_fresh hlisted hsrcEntries hdstEntries hslot hrun hdst
    hg.other hfound
  have hmade : (createChannel s destination).exec r = _ := congrArg Prod.snd hcreate
  have hlogins := rel_exec_of_each (serveProxy_sameLogins s header destination) r
  have hrole := (mayOriginate_iff _).mpr hg.role
  have hsame : SameChannels ((createChannel s destination).exec r)
      ((serveProxy s header destination).exec r) := serveProxy_sameChannels hrole hg.loggedIn
  have hexec : (serveProxy s header destination).exec r =
      (announce s header r.channels.length dst).exec ((createChannel s destination).exec r) :=
    exec_serveProxy_of_ok hrole hg.loggedIn (congrArg Prod.fst hcreate)
  rw [hmade] at hexec hsame
  generalize (serveProxy s header destination).exec r = r' at *
  -- The channel has come into its places; what is left is to start it and to tell of it.
  generalize hr₁ : ((r.made s dst listed).withEntries s .src srcEntries).withEntries dst .dst
    dstEntries = r₁ at hexec hsame
  have hsrc₀ : s < (r.made s dst listed).sessions.length := lt_of_running hrun
  have hlength : r₁.sessions.length = r.sessions.length := by
    rw [← hr₁, (sameLogins_withEntries ..).length, (sameLogins_withEntries ..).length]
    rfl
  have hsession (t : SessionRef) : r₁.session t =
      if t = dst then (r.session dst).withChannels .dst dstEntries
      else if t = s then (r.session s).withChannels .src srcEntries else r.session t := by
    rw [← hr₁, session_withEntries, session_withEntries hsrc₀, session_withEntries hsrc₀,
      if_neg hg.other]
    · rfl
    · rw [(sameLogins_withEntries ..).length]
      exact lt_of_running hdst
  have hchannels : ((startChannel r.channels.length).exec r₁).channels =
      r.channels ++ [(r.newChannel s dst).start] := by
    rw [channels_startChannel, ← hr₁]
    exact modify_last r.channels (r.newChannel s dst) Channel.start
  have hstarted (t : SessionRef) :
      ((startChannel r.channels.length).exec r₁).session t = r₁.session t := by
    rw [session, sessions_startChannel, session]
  have hchannel : ((startChannel r.channels.length).exec r₁).channel r.channels.length =
      (r.newChannel s dst).start := by
    rw [channel, hchannels, channel_append, if_pos rfl]
  rw [exec_announce, hchannel] at hexec
  have hpushed := session_pushBoth (r := (startChannel r.channels.length).exec r₁) header
    (by rw [sessions_startChannel, hlength]; exact lt_of_running hrun)
    (by rw [sessions_startChannel, hlength]; exact lt_of_running hdst) hg.other
    (r.newChannel s dst).start (((startChannel r.channels.length).exec r₁).session s)
  rw [← hexec] at hpushed
  have hself : r₁.session s = (r.session s).withChannels .src srcEntries := by
    rw [hsession, if_neg hg.other.symm, if_pos rfl]
  refine ⟨?_, rfl, ?_, rfl, rfl, ?_, ?_, ⟨srcEntries, hsrcEntries, ?_⟩,
    ⟨dstEntries, hdstEntries, ?_⟩, ?_, hlogins⟩
  · rw [hexec]
    exact hchannels
  · intro c hc
    show (r.channel c).id < r.nextChannelId
    rw [h.registered.id_eq c hc, h.registered.next_eq, UInt32.lt_iff_toNat_lt,
      channelIdAt_toNat (Nat.lt_trans hc hn), channelIdAt_toNat hn]
    exact Nat.succ_lt_succ hc
  · rw [hsame.listed, ← hr₁]
    exact hlisted
  · rw [hsame.slots, ← hr₁]
    rfl
  · rw [hpushed, if_pos rfl, hstarted, hself]
    rfl
  · rw [hpushed, if_neg hg.other, if_pos rfl, hstarted, hstarted, hself, hsession, if_pos rfl]
    rfl
  · intro t hts htd
    rw [hpushed, if_neg hts, if_neg htd, hstarted, hsession, if_neg htd, if_neg hts]

/-! ## Every request -/

/-- Whoever asks is joined to the session if that may be, and otherwise told that it is not. -/
theorem Ordered.proxyServed (h : Ordered r) (hset : Settled r)
    (hn : r.channels.length < 2 ^ 32 - 1) (hrun : (r.session s).running = true)
    (header : Header) (destination : SessionId) :
    ProxyServed s header destination r ((Relay.serveProxy s header destination).exec r) := by
  have hgranted (dst : SessionRef) (hg : Grantable r s destination dst) :=
    connected_serveProxy h hset hn hg header
  rcases exec_serveProxy_refused_or_admitted r s header destination with
    ⟨result, hresult, hexec⟩ | ⟨hrole, hin, dst, hslot, hfound, -, hne⟩
  · have hnone (dst : SessionRef) : ¬ Grantable r s destination dst := by
      intro hg
      -- A refusal makes no channel, a grant makes one.
      have hchannels := (hgranted dst hg).channels
      rw [hexec] at hchannels
      exact List.cons_ne_nil _ _ (List.self_eq_append_right.mp hchannels)
    refine ⟨⟨result, 0, .unspecified, 0, ?_, fun hs => absurd hs hresult, ?_⟩,
      fun dst hg => absurd hg (hnone dst), fun _ => ⟨result, hresult, hexec⟩⟩
    · rw [hexec]
      exact outbox_push r hrun
    · rintro ⟨dst, hg⟩
      exact absurd hg (hnone dst)
  · obtain ⟨hdst, hdiscoverable, hid⟩ := (hset.logins.index_get _ _).mp hfound
    have hg : Grantable r s destination dst :=
      ⟨(mayOriginate_iff _).mp hrole, hin, h.registered.slots_eq ▸ hslot, hne, hdst, hdiscoverable,
        hid⟩
    obtain ⟨entries, -, hsession⟩ := (hgranted dst hg).requester
    exact ⟨⟨.success, _, _, _, congrArg Session.outbox hsession, fun _ => ⟨dst, hg⟩, fun _ => rfl⟩,
      fun dst hg => ⟨_, hgranted dst hg⟩, fun hnone => absurd hg (hnone dst)⟩

/-- A request for a channel is granted exactly when it may be, whatever the client claims its
own id to be and whatever it adds. The request is found in the data that arrives on a session's
connection after any run; `midway` is the relay when the pieces before it were handled, and again
when it was handled too. -/
theorem requests_served (config : Config) (events : List Event) (s : SessionRef) (data : Bytes)
    (hrun : ((Relay.after { config } events).session s).running = true) (n : Nat) (frame : Frame)
    (hpiece : ((Relay.after { config } events).pieces s data)[n]? = some (.frame frame))
    (source destination : SessionId) (game : String)
    (hdecode : Request.decode frame = .ok (.proxy source destination game))
    (hn : ((Relay.after { config } events).midway s data n).channels.length < 2 ^ 32 - 1) :
    ProxyServed s frame.header destination ((Relay.after { config } events).midway s data n)
      ((Relay.after { config } events).midway s data (n + 1)) := by
  have h := sound_after config events
  generalize Relay.after { config } events = r at *
  obtain ⟨hmid, hstill⟩ := h.settled.midway hrun data n
  rw [midway_succ h.settled hrun hpiece]
  show ProxyServed s frame.header destination _ ((serveFrame s frame).exec _)
  rw [serveFrame, hdecode]
  exact ((h.midway hrun data n).ordered hn).proxyServed hmid hn hstill ..

/-- The client of the second session, which claims another id than its own, is joined to the
first. -/
theorem requests_served_linked :
    Grantable ((Relay.after {} (linked.take 4)).midway 1 (Request.encode (.proxy 7 1000 "")) 0) 1
        1000 0 ∧
      ProxyServed 1 (Request.proxy 7 1000 "").frame.header 1000
        ((Relay.after {} (linked.take 4)).midway 1 (Request.encode (.proxy 7 1000 "")) 0)
        ((Relay.after {} (linked.take 4)).midway 1 (Request.encode (.proxy 7 1000 "")) 1) := by
  have hrun : ((Relay.after {} (linked.take 4)).session 1).running = true := by decide +kernel
  have hpiece :
      ((Relay.after {} (linked.take 4)).pieces 1 (Request.encode (.proxy 7 1000 "")))[0]? =
        some (.frame (Request.proxy 7 1000 "").frame) := by decide +kernel
  have hdecode : Request.decode (Request.proxy 7 1000 "").frame = .ok (.proxy 7 1000 "") := by
    decide +kernel
  have hlen : ((Relay.after {} (linked.take 4)).midway 1
      (Request.encode (.proxy 7 1000 "")) 0).channels.length = 0 := by decide +kernel
  refine ⟨⟨by decide +kernel, by decide +kernel, by decide +kernel, by decide, by decide +kernel,
    by decide +kernel, by decide +kernel⟩, ?_⟩
  refine requests_served {} (linked.take 4) 1 _ hrun 0 _ hpiece 7 1000 "" hdecode ?_
  rw [hlen]
  decide

end PeerRelay.Relay
