import PeerRelay.Proofs.Relay.Announcements
import PeerRelay.Proofs.Relay.RegistrationRuns

/-!
# Announcements over whole runs

A channel that is made for a request is announced to both sessions by the same request, and
every other event carries on what was told of it. So after every run both have been told of
the channel once, and then of its end, and nobody else has.
-/

namespace PeerRelay.Relay

open Steps
open Wire (Frame Header ResultCode)

variable {r r' : Relay} {s : SessionRef} {c : ChannelRef} {id : ChannelId}
variable {past : List Relay} {header : Header} {destination : SessionId}

/-! ## A channel is made for a request -/

/-- A session for whose request a channel is made may ask for one and is logged in. -/
theorem admitted_of_made
    (h : r.channels.length < ((serveProxy s header destination).exec r).channels.length) :
    (r.session s).role.mayOriginate = true ∧ (r.session s).loggedIn = true := by
  have hpush (response : Response) : ¬ r.channels.length <
      ((push s header response).exec r).channels.length := Nat.lt_irrefl _
  rw [serveProxy, exec_bind] at h
  cases hrole : (r.session s).role.mayOriginate with
  | false =>
      simp only [run_read, hrole, Bool.not_false, if_true] at h
      exact absurd h (hpush _)
  | true =>
      cases hin : (r.session s).loggedIn with
      | false =>
          simp only [run_read, hrole, hin, Bool.not_true, Bool.not_false, Bool.false_eq_true,
            if_false, if_true] at h
          exact absurd h (hpush _)
      | true => exact ⟨rfl, rfl⟩

/-- Starts a channel that was made for a request and tells both sessions of it. -/
def announce (s : SessionRef) (header : Header) (c : ChannelRef) (dst : SessionRef) :
    Op Unit := do
  startChannel c
  let channel ← .read (·.channel c)
  let session ← .read (·.session s)
  push dst header (.access session.id channel.id channel.dst.relay.ip.wireIpv4
    channel.dst.relay.port session.privateAddr)
  push s header (.proxy .success channel.id channel.src.relay.ip.wireIpv4
    channel.src.relay.port)

theorem announce_sameChannels (s : SessionRef) (header : Header) (c : ChannelRef)
    (dst : SessionRef) : (announce s header c dst).Each SameChannels := by
  refine each_bind (startChannel_sameChannels c) fun _ => ?_
  refine each_bind (each_read _) fun channel => each_bind (each_read _) fun session => ?_
  exact each_bind (push_sameChannels ..) fun _ => push_sameChannels ..

theorem exec_serveProxy_of_ok {dst : SessionRef}
    (hrole : (r.session s).role.mayOriginate = true) (hin : (r.session s).loggedIn = true)
    (hok : ((createChannel s destination).run r).1 = .ok (c, dst)) :
    (serveProxy s header destination).exec r =
      (announce s header c dst).exec ((createChannel s destination).exec r) := by
  have hread : (read (·.session s) : Op Session).exec r = r := rfl
  rw [serveProxy, exec_bind]
  simp only [run_read, hrole, hin, Bool.not_true, Bool.false_eq_true, if_false]
  rw [exec_bind, hread, hok]
  rfl

theorem told_push_of_lt {header : Header} {response : Response} {id : ChannelId} {u : SessionRef}
    (hs : s < r.sessions.length) (hid : response.channel? = some id) :
    ((push s header response).exec r).told u id =
      r.told u id ++ if u = s then [response] else [] := by
  have hpush : ((push s header response).exec r).told u id = _ := told_push r s u header response
  rw [if_congr (and_iff_left hid) rfl rfl, if_congr (and_iff_left hs) rfl rfl] at hpush
  exact hpush

/-- The invitation and the answer, as a request queues them that has looked at the channel and at
its own session. -/
def pushBoth (header : Header) (s dst : SessionRef) (channel : Channel) (session : Session) :
    Op Unit := do
  push dst header (.access session.id channel.id channel.dst.relay.ip.wireIpv4
    channel.dst.relay.port session.privateAddr)
  push s header (.proxy .success channel.id channel.src.relay.ip.wireIpv4
    channel.src.relay.port)

theorem exec_announce (s : SessionRef) (header : Header) (c : ChannelRef) (dst : SessionRef)
    (r : Relay) :
    (announce s header c dst).exec r =
      (pushBoth header s dst (((startChannel c).exec r).channel c)
        (((startChannel c).exec r).session s)).exec ((startChannel c).exec r) := by
  rw [announce, exec_bind]
  rfl

theorem told_pushBoth (header : Header) {t : Channel.Terms} {dst : SessionRef} {channel : Channel}
    {session : Session} (hterms : channel.terms = t) (hid : session.id = t.sessionId .src)
    (hs : s < r.sessions.length) (hdst : dst < r.sessions.length) (u : SessionRef) :
    ((pushBoth header s dst channel session).exec r).told u t.id = r.told u t.id ++
      (if u = dst then [t.invitation session.privateAddr] else []) ++
      (if u = s then [t.reply] else []) := by
  subst hterms
  rw [pushBoth, exec_bind, told_push_of_lt ?_ rfl, told_push_of_lt hdst rfl, hid]
  · rfl
  · exact Nat.lt_of_lt_of_eq hs (List.length_modify ..).symm

/-- The session that was asked for is told of the channel first, and then the one that asked. -/
theorem told_announce (header : Header) {dst : SessionRef}
    (hsource : (r.channel c).terms.sessionId .src = (r.session s).id)
    (hs : s < r.sessions.length) (hdst : dst < r.sessions.length) (t : SessionRef) :
    ((announce s header c dst).exec r).told t (r.channel c).terms.id =
      r.told t (r.channel c).terms.id ++
      (if t = dst then [(r.channel c).terms.invitation (r.session s).privateAddr] else []) ++
      (if t = s then [(r.channel c).terms.reply] else []) := by
  have hsilent := rel_exec_of_each (startChannel_silent c) r
  have hlogins := rel_exec_of_each (startChannel_sameLogins c) r
  have hterms := (rel_exec_of_each (startChannel_sameChannels c) r).terms c
  rw [exec_announce, told_pushBoth header hterms ((hlogins.id s).trans hsource.symm)
    (hlogins.length ▸ hs) (hlogins.length ▸ hdst), told_congr (hsilent.outbox t),
    hlogins.privateAddr]

/-- A channel that is made for a request has the next id. -/
theorem id_of_made
    (h : r.channels.length < ((serveProxy s header destination).exec r).channels.length) :
    (((serveProxy s header destination).exec r).channel r.channels.length).id =
      r.nextChannelId := by
  obtain ⟨hrole, hin⟩ := admitted_of_made h
  have hsame : SameChannels ((createChannel s destination).exec r)
      ((serveProxy s header destination).exec r) := serveProxy_sameChannels hrole hin
  rw [hsame.length] at h
  exact (congrArg Channel.Terms.id (hsame.terms _)).trans (createChannel_id h)

/-- What comes of a request for which a channel is made under an id that nobody has: the
channel joins the session that asks to another that runs, and both are told of it. -/
theorem serveProxy_made (hrun : (r.session s).running = true)
    (hmade : r.channels.length < ((serveProxy s header destination).exec r).channels.length)
    (hunborn : Unborn r.nextChannelId r) :
    ∃ dst privateAddr, (r.session dst).running = true ∧ dst ≠ s ∧
      Joined s dst r ((serveProxy s header destination).exec r) ∧
      ∀ t, ((serveProxy s header destination).exec r).told t r.nextChannelId =
        (if t = dst then [(r.newChannel s dst).terms.invitation privateAddr] else []) ++
        if t = s then [(r.newChannel s dst).terms.reply] else [] := by
  obtain ⟨hrole, hin⟩ := admitted_of_made hmade
  rw [(serveProxy_sameChannels hrole hin).length] at hmade
  rcases createChannel_refused_or_placed (R := Lasting) r s destination reserveSlot_lasting
      releaseSlot_lasting with
    ⟨refusal, hrefused, -⟩ | ⟨dst, hslot, hfound, hdst, hne, -, -⟩
  · rw [exec, hrefused] at hmade
    exact absurd hmade (Nat.lt_irrefl _)
  · have hfree {t : SessionRef} (ht : (r.session t).running = true) (side : Side) :
        r.nextChannelId ∉ ((r.session t).channels side).keys :=
      Registry.get?_eq_none_iff.mp (hunborn.entries t side ht)
    obtain ⟨hok, hjoined, houtbox⟩ := createChannel_of_fresh
      (Registry.get?_eq_none_iff.mp hunborn.listed) (hfree hrun .src) (hfree hdst .dst) hslot hrun
      hdst hne hfound
    have hlogins := rel_exec_of_each (createChannel_sameLogins s destination) r
    rw [exec_serveProxy_of_ok hrole hin hok]
    generalize (createChannel s destination).exec r = r₁ at hjoined houtbox hlogins
    have hterms : (r₁.channel r.channels.length).terms = (r.newChannel s dst).terms :=
      (hjoined.terms _).trans (if_pos rfl)
    have hid : (r.newChannel s dst).terms.id = r.nextChannelId := rfl
    have hsource : (r₁.channel r.channels.length).terms.sessionId .src = (r₁.session s).id := by
      rw [hterms, hlogins.id]
      rfl
    have hsame := rel_exec_of_each (announce_sameChannels s header r.channels.length dst) r₁
    refine ⟨dst, (r₁.session s).privateAddr, hdst, hne, hjoined.sameChannels hsame, fun t => ?_⟩
    have htold := told_announce header hsource
      (hlogins.length ▸ lt_of_running hrun) (hlogins.length ▸ lt_of_running hdst) t
    rw [hterms, hid, told_congr (houtbox t), hunborn.told, List.nil_append] at htold
    exact htold

/-- The story of a channel begins when it is made under an id that nobody has. -/
theorem Unborn.story (h : Unborn r.nextChannelId r) (hrun : (r.session s).running = true)
    (hmade : r.channels.length < ((serveProxy s header destination).exec r).channels.length)
    (hpast : ∀ m ∈ past, Lasting m ((serveProxy s header destination).exec r)) :
    Story r.channels.length r.nextChannelId past ((serveProxy s header destination).exec r) := by
  have hlogins := rel_exec_of_each (serveProxy_sameLogins s header destination) r
  obtain ⟨dst, privateAddr, hdst, hne, hjoined, htold⟩ := serveProxy_made hrun hmade h
  generalize (serveProxy s header destination).exec r = r' at *
  have hterms : (r'.channel r.channels.length).terms = (r.newChannel s dst).terms :=
    (hjoined.terms _).trans (if_pos rfl)
  have hid : (r.newChannel s dst).terms.id = r.nextChannelId := rfl
  have hopen : (r'.channel r.channels.length).stopped = false :=
    (hjoined.stopped _).trans (if_pos rfl)
  have hfind := find?_ended_eq_none hopen hpast
  have hnone (t : SessionRef) (notice : Response) :
      farewell past r.channels.length t notice = [] := by rw [farewell, hfind]
  have hsrc : (r.newChannel s dst).terms.session .src = s := rfl
  have hdest : (r.newChannel s dst).terms.session .dst = dst := rfl
  refine ⟨⟨?_, ?_, ?_, ?_, ?_⟩, hmade, ?_, ?_, ?_⟩
  · rw [hterms]
    exact hne.symm
  · rw [hopen, hfind]
    rfl
  · rw [hterms, hid, hsrc, htold, hnone, if_neg hne.symm, if_pos rfl]
    rfl
  · refine ⟨privateAddr, ?_⟩
    rw [hterms, hid, hdest, htold, hnone, if_pos rfl, if_neg hne]
    rfl
  · intro t ht
    rw [hterms] at ht
    have hnotDst : t ≠ dst := (ht .dst).symm
    have hnotSrc : t ≠ s := (ht .src).symm
    rw [hterms, hid, htold, if_neg hnotDst, if_neg hnotSrc]
    rfl
  · rw [hterms, hid]
  · intro side
    rw [hterms, hlogins.length]
    cases side
    · exact lt_of_running hrun
    · exact lt_of_running hdst
  · intro _ side _
    have hentries := hjoined.entries ((r.newChannel s dst).terms.session side) side
    rw [if_pos rfl] at hentries
    rw [hterms, Registry.get?_of_insert? hentries, if_pos rfl]

/-! ## Requests -/

theorem tells_serveProxy (hrun : (r.session s).running = true) :
    Tells c id (serveProxy s header destination) r := by
  by_cases h : r.channels.length < ((serveProxy s header destination).exec r).channels.length →
      r.nextChannelId ≠ id
  · exact tells_of_beside (serveProxy_beside h)
  · -- The channel that is made has the id, so it is the one that the story is told of.
    obtain ⟨hmade, hnext⟩ := Classical.not_imp.mp h
    obtain rfl := not_not.mp hnext
    have hlasting := (serveProxy_lasting s header destination).along r
    refine ⟨hlasting, fun past hc hsole => ?_⟩
    have hpast := lasting_append_trace hlasting hc.lasting
    refine ⟨hpast, .inr ?_⟩
    obtain rfl := hsole r.channels.length hmade (id_of_made hmade)
    rcases hc.story with hunborn | hstory
    · exact hunborn.story hrun hmade hpast
    · exact absurd hstory.made (Nat.lt_irrefl _)

/-- Whatever a client sends, the chronicle goes on while it is served. -/
theorem tells_servePiece (hrun : (r.session s).running = true) (piece : Frame.Piece) :
    Tells c id (servePiece s piece) r := by
  have hlogin (result : ResultCode) (sessionId : SessionId) :
      (Response.login result sessionId).channel? ≠ some id := nofun
  cases piece with
  | skip m1 m2 version =>
      exact tells_quiet (each_modify fun r => sameChannels_count _ r)
        (servePiece_skip_silent (s := s) m1 m2 version) r
  | frame frame =>
      unfold servePiece serveFrame
      dsimp only
      split
      · exact tells_pure () r
      · exact tells_of_beside (along_beside (serveLogin_sameChannels ..)
          (serveLogin_along hrun hlogin))
      · exact tells_serveProxy hrun
      · exact tells_of_beside (along_beside (servePeers_sameChannels ..)
          (servePeers_along hrun nofun))
      · exact tells_of_beside (along_beside (refuseMalformed_sameChannels ..)
          (refuseMalformed_along hrun (fun sessionId _ => hlogin .failed sessionId) fun _ => nofun))
      · exact tells_pure () r

theorem tells_servePieces (hrun : (r.session s).running = true) (pieces : List Frame.Piece) :
    Tells c id (servePieces s pieces) r := by
  induction pieces generalizing r with
  | nil => exact tells_pure () r
  | cons piece rest ih =>
      refine tells_bind (tells_servePiece hrun piece) (tells_read ?_)
      split
      · rename_i hstill
        exact ih hstill
      · exact tells_pure () _

theorem tells_receive (s : SessionRef) (data : Bytes) (r : Relay) :
    Tells c id (receive s data) r := by
  refine tells_read ?_
  split
  · rename_i hrun
    refine tells_bind (tells_quiet (each_modify fun r => ?_) (each_modify fun r => ?_) r)
      (tells_servePieces ?_ _)
    · exact .modifySession r s fun _ side => by cases side <;> rfl
    · exact unread_silent r s _
    · exact (unread_silent r s _).still_running hrun
  · exact tells_pure () r

/-! ## Events -/

theorem tells_op (e : Event) (r : Relay) : Tells c id e.op r :=
  op_of_parts (T := fun _ p r => Tells c id p r) (fun r hc hs => tells_quiet hc hs r) tells_bind
    tells_stopSession tells_stopChannel r e fun s data _ => tells_receive s data r

/-- The chronicle goes on over every run that does not give the id to another channel. -/
theorem Chronicle.after (h : Chronicle c id past r) (events : List Event)
    (hsole : Sole c id (r.after events)) :
    Chronicle c id (past ++ r.moments events) (r.after events) := by
  induction events generalizing r past with
  | nil =>
      rw [moments, List.append_nil]
      exact h
  | cons e events ih =>
      have hstep := (tells_op e r).keeps past h (hsole.before (lasting_after (r.step e) events))
      rw [moments, ← List.append_assoc]
      exact ih hstep hsole

theorem chronicle_init (config : Config) : Chronicle c id [] { config } := by
  have hsession (s : SessionRef) : Relay.session { config } s = .vacant := session_of_le s.zero_le
  refine ⟨fun m hm => absurd hm List.not_mem_nil, .inl ⟨fun d hd => absurd hd (Nat.not_lt_zero d),
    fun s side hrun => ?_, rfl, fun s => ?_⟩⟩
  · rw [hsession] at hrun
    cases hrun
  · rw [told, hsession]
    rfl

/-- An id that no channel has is nowhere. -/
theorem unborn_after (config : Config) (events : List Event) {id : ChannelId}
    (h : ∀ d < (Relay.after { config } events).channels.length,
      ((Relay.after { config } events).channel d).id ≠ id) :
    Unborn id (Relay.after { config } events) := by
  have hchronicle := (chronicle_init (c := 0) config).after events
    fun d hd hid => absurd hid (h d hd)
  exact hchronicle.story.resolve_right fun hstory => h 0 hstory.made hstory.id_eq

/-- No two channels share an id as long as the counter has not come round. -/
theorem sole_after (config : Config) (events : List Event) {c : ChannelRef}
    (hn : (Relay.after { config } events).channels.length < 2 ^ 32 - 1)
    (hc : c < (Relay.after { config } events).channels.length) :
    Sole c ((Relay.after { config } events).channel c).id (Relay.after { config } events) :=
  fun _ hd hid => ((sound_after config events).ordered hn).registered.id_inj hn hd hc hid

theorem announced_of_sole (config : Config) (events : List Event) {c : ChannelRef}
    (hc : c < (Relay.after { config } events).channels.length)
    (hsole : Sole c ((Relay.after { config } events).channel c).id
      (Relay.after { config } events)) :
    Announced c (Relay.moments { config } events) (Relay.after { config } events) := by
  have hchronicle := (chronicle_init config).after events hsole
  rcases hchronicle.story with hunborn | hstory
  · exact absurd rfl (hunborn.fresh c hc)
  · exact hstory.toAnnounced

/-- As long as fewer than `2 ^ 32 - 1` channels were made, both sessions of each of them were
told of it and of its end. -/
theorem each_announced_after (config : Config) (events : List Event)
    (hn : (Relay.after { config } events).channels.length < 2 ^ 32 - 1) :
    ∀ c < (Relay.after { config } events).channels.length,
      Announced c (Relay.moments { config } events) (Relay.after { config } events) :=
  fun _ hc => announced_of_sole config events hc (sole_after config events hn hc)

/-- Two clients are joined, and the one that was asked for goes away. -/
def deserted : List Event := linked ++ [.disconnect 0]

end PeerRelay.Relay
