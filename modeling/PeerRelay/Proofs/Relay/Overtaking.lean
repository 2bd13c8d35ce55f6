import PeerRelay.Proofs.Pool
import PeerRelay.Proofs.Relay.AnnouncementRuns

/-!
# The end of a channel may overtake its announcement

A channel is in all its places before the request that made it has told anybody of it. The
request starts the channel, invites the session that was asked for and answers the one that
asked, one after the other. Whoever ends the channel in between has the notices of its end
queued at once, and what the request has not queued by then comes behind them.
-/

namespace PeerRelay.Relay

open Steps
open Channel (Terms)
open Wire (Header)

variable {r r' r'' : Relay} {c : ChannelRef} {t : Terms} {s : SessionRef}

/-- How somebody else ends a channel that is about to be announced. -/
inductive Ending where
  /-- Someone who holds it stops it. -/
  | held
  /-- It is closed by its id. -/
  | byId
  /-- The session that was asked for ends. -/
  | destination
  deriving DecidableEq

def Ending.op (e : Ending) (c : ChannelRef) (id : ChannelId) (dst : SessionRef) : Op Unit :=
  match e with
  | held => stopChannel c
  | byId => do let _ ← closeChannel id
  | destination => stopSession dst

/-- The notices that a session is sent for the end. A session that has ended is sent none. -/
def Ending.notices (e : Ending) (t : Terms) (s : SessionRef) : List Response :=
  (if s = t.session .src then [t.notice .src] else []) ++
    if s = t.session .dst ∧ e ≠ .destination then [t.notice .dst] else []

/-! ## A channel in all its places -/

/-- A channel that is open and in all its places. Both of its sessions run, and no other channel
has its id. -/
structure Placed (c : ChannelRef) (t : Terms) (r : Relay) : Prop where
  opened : (r.channel c).stopped = false
  terms_eq : (r.channel c).terms = t
  sole : Sole c t.id r
  distinct : t.session .src ≠ t.session .dst
  listed : r.listed.get? t.id = some c
  entries : ∀ side, ((r.session (t.session side)).channels side).get? t.id = some c
  running : ∀ side, (r.session (t.session side)).running = true
  sourceId : (r.session (t.session .src)).id = t.sessionId .src

theorem Placed.same (h : Placed c t r) (hc : SameChannels r r') (hl : SameLogins r r') :
    Placed c t r' where
  opened := (hc.stopped c).trans h.opened
  terms_eq := (hc.terms c).trans h.terms_eq
  sole d hd hid := h.sole d (hc.length ▸ hd) ((congrArg Terms.id (hc.terms d)).symm.trans hid)
  distinct := h.distinct
  listed := by rw [hc.listed, h.listed]
  entries side := by rw [hc.entries, h.entries]
  running side := (hl.running _).trans (h.running side)
  sourceId := (hl.id _).trans h.sourceId

/-! ## The destination session ends -/

/-- Every channel of the id is over, and the source session was told so since. -/
structure Mourned (t : Terms) (r r' : Relay) : Prop where
  ended : ∀ d < r'.channels.length, (r'.channel d).id = t.id → (r'.channel d).stopped = true
  told : ∀ s, r'.told s t.id = r.told s t.id ++ if s = t.session .src then [t.notice .src] else []

theorem Mourned.beside (h : Mourned t r r') (hb : Beside t.id r' r'') : Mourned t r r'' := by
  refine ⟨fun d hd hid => ?_, fun s => (hb.told s).trans (h.told s)⟩
  rcases Nat.lt_or_ge d r'.channels.length with hlt | hge
  · have hid' : (r'.channel d).id = t.id := (hb.id_eq hlt).symm.trans hid
    exact (hb.state d hlt hid').trans (h.ended d hlt hid')
  · exact absurd hid (hb.fresh d hge hd)

/-- A channel whose destination session has just ended. -/
structure Deserted (c : ChannelRef) (t : Terms) (r : Relay) : Prop where
  opened : (r.channel c).stopped = false
  terms_eq : (r.channel c).terms = t
  sole : Sole c t.id r
  distinct : t.session .src ≠ t.session .dst
  entries : ∀ side, ((r.session (t.session side)).channels side).get? t.id = some c
  source : (r.session (t.session .src)).running = true
  destination : (r.session (t.session .dst)).running = false

/-- So far nothing has happened to the channel since its destination session ended, or it is
over and its source session has been told. -/
def Undecided (t : Terms) (r r' : Relay) : Prop :=
  SameLogins r r' ∧ (Beside t.id r r' ∨ Mourned t r r')

theorem Undecided.beside (h : Undecided t r r') (hb : Beside t.id r' r'')
    (hl : SameLogins r' r'') : Undecided t r r'' :=
  ⟨h.1.trans hl, h.2.imp (·.trans hb) (·.beside hb)⟩

theorem Undecided.stopChannel (hd : Deserted c t r) (h : Undecided t r r') (d : ChannelRef) :
    Undecided t r ((stopChannel d).exec r') := by
  obtain ⟨hl, h⟩ := h
  have hl' : SameLogins r ((Relay.stopChannel d).exec r') :=
    hl.trans (rel_exec_of_each (stopChannel_sameLogins d) r')
  by_cases hother : (r'.channel d).id = t.id → (r'.channel d).stopped = true
  · have hb := rel_exec_of_along (stopChannel_beside hother)
    exact ⟨hl', h.imp (·.trans hb) (·.beside hb)⟩
  · obtain ⟨hid, hopen⟩ := Classical.not_imp.mp hother
    have hopen := Bool.eq_false_iff.mpr hopen
    have hlt := lt_of_stopped_eq_false hopen
    rcases h with hb | hm
    · -- It is the channel itself that is stopped.
      have hdlt : d < r.channels.length := Nat.lt_of_not_le fun hge => hb.fresh d hge hlt hid
      have hdc : d = c := hd.sole d hdlt ((hb.id_eq hdlt).symm.trans hid)
      subst hdc
      have hterms : (r'.channel d).terms = t := (hb.terms d hdlt).trans hd.terms_eq
      have hsource : (r'.session (t.session .src)).running = true :=
        (hl.running _).trans hd.source
      have hended : (r'.session (t.session .dst)).running = false :=
        (hl.running _).trans hd.destination
      have hentry : t.id ∈ ((r'.session (t.session .src)).channels .src).keys :=
        Registry.mem_keys_iff.mpr ⟨d, (hb.entries _ .src hsource).trans (hd.entries .src)⟩
      have hdropped : Dropped d r' ((Relay.stopChannel d).exec r') :=
        stopChannel_dropped hopen (.inl (by rw [hid, hterms]; exact hentry))
      refine ⟨hl', .inr ⟨fun e he hide => (hdropped.stopped e).mpr (.inl ?_), fun s => ?_⟩⟩
      · have hide' : (r'.channel e).id = t.id :=
          (congrArg Terms.id (hdropped.terms e)).symm.trans hide
        have helt : e < r.channels.length :=
          Nat.lt_of_not_le fun hge => hb.fresh e hge (hdropped.length ▸ he) hide'
        exact hd.sole e helt ((hb.id_eq helt).symm.trans hide')
      · have htold := told_stopChannel hopen (fun side hrun => ?_) s
        · rw [hterms] at htold
          rw [htold, hsource, hended, hb.told]
          simp
        · rw [hterms] at hrun ⊢
          rw [hid]
          cases side with
          | src => exact hentry
          | dst => exact absurd hrun (by rw [hended]; exact Bool.false_ne_true)
    · exact absurd (hm.ended d hlt hid) (by rw [hopen]; exact Bool.false_ne_true)

theorem Undecided.discardChannel (hd : Deserted c t r) (h : Undecided t r r') (d : ChannelRef) :
    Undecided t r ((discardChannel d).exec r') := by
  rw [exec_discardChannel, ← exec_forgetChannel]
  exact (h.beside (rel_exec_of_each (forgetChannel_beside _) r')
    (rel_exec_of_each (forgetChannel_sameLogins _) r')).stopChannel hd d

theorem Undecided.handOut (h : Undecided t r r') (hended : (r.session s).running = false)
    (hs : s < r.sessions.length) (side : Side) :
    Undecided t r (r'.withEntries s side .empty) := by
  have hbeside : Beside t.id r' ((takeChannels s side).exec r') :=
    rel_exec_of_along (takeChannels_beside side ((h.1.running s).trans hended))
  have hlogins := rel_exec_of_each (takeChannels_sameLogins s side) r'
  rw [exec_takeChannels (h.1.length ▸ hs)] at hbeside hlogins
  exact h.beside hbeside hlogins

/-- The entry at the destination session is handed out, if the channel is not over by then. -/
structure Reaches (c : ChannelRef) (t : Terms) (r r' : Relay) : Prop extends Lasting r r' where
  count : r'.channels.length = r.channels.length
  entry : (r'.channel c).stopped = true ∨
    ((r'.session (t.session .dst)).channels .dst).get? t.id = some c

theorem Reaches.discardChannel (hd : Deserted c t r) (h : Reaches c t r r') (d : ChannelRef) :
    Reaches c t r ((discardChannel d).exec r') := by
  have hlasting := rel_exec_of_each (discardChannel_lasting d) r'
  have hlt : c < r'.channels.length := h.count ▸ lt_of_stopped_eq_false hd.opened
  cases hopen : (r'.channel d).stopped with
  | true =>
      have hsame : SameChannels (r'.forgotten (r'.channel d).id)
          ((Relay.discardChannel d).exec r') := by
        rw [exec_discardChannel]
        exact stopChannel_of_stopped hopen
      refine ⟨h.toLasting.trans hlasting, hsame.length.trans h.count, ?_⟩
      rw [hsame.stopped, hsame.entries]
      exact h.entry
  | false =>
      have hdropped := discardChannel_dropped hopen
      refine ⟨h.toLasting.trans hlasting, hdropped.length.trans h.count, ?_⟩
      by_cases hdc : d = c
      · exact .inl ((hdropped.stopped c).mpr (.inl hdc.symm))
      · refine h.entry.imp (hlasting.stopped c hlt) fun hentry => ?_
        have hid : (r'.channel d).id ≠ t.id := by
          intro hid
          have hdlt : d < r.channels.length := h.count ▸ lt_of_stopped_eq_false hopen
          exact hdc (hd.sole d hdlt ((h.id_eq hdlt).symm.trans hid))
        rw [hdropped.entries]
        split
        · rw [Registry.get?_erase, if_neg hid.symm, hentry]
        · exact hentry

/-- Every channel that a loop stops is over afterwards. -/
theorem stopped_forM_stopChannel (cs : List ChannelRef) (hc : c < r.channels.length)
    (h : (r.channel c).stopped = true ∨ c ∈ cs) :
    (((cs.forM stopChannel).exec r).channel c).stopped = true := by
  induction cs generalizing r with
  | nil => exact h.resolve_right List.not_mem_nil
  | cons d cs ih =>
      have hlasting := rel_exec_of_each (stopChannel_lasting d) r
      rw [exec_forM_cons]
      refine ih (Nat.lt_of_lt_of_le hc hlasting.length) ?_
      rcases h with h | h
      · exact .inl (hlasting.stopped c hc h)
      · rcases List.mem_cons.mp h with rfl | h
        · exact .inl (stopped_stopChannel hc)
        · exact .inr h

/-- When the destination session has ended, the channel is stopped and the source session is
told. -/
theorem Deserted.stopChannels (hd : Deserted c t r) :
    SameLogins r ((stopChannels (t.session .dst)).exec r) ∧
      Mourned t r ((stopChannels (t.session .dst)).exec r) := by
  have hc : c < r.channels.length := lt_of_stopped_eq_false hd.opened
  have hlt : t.session .dst < r.sessions.length := by
    refine Nat.lt_of_not_le fun hge => ?_
    have hentry := hd.entries .dst
    rw [session_of_le hge] at hentry
    cases hentry
  rw [exec_stopChannels]
  -- The channels that the session asked for come first; the channel is not one of them.
  have hfirst := forM_exec_induct (P := fun r' => Undecided t r r' ∧ Reaches c t r r')
    (fun d r' h => ⟨h.1.discardChannel hd d, h.2.discardChannel hd d⟩)
    (r.channelsOn (t.session .dst) .src) (r.withEntries (t.session .dst) .src .empty)
    ⟨Undecided.handOut ⟨.refl r, .inl (.refl r)⟩ hd.destination hlt .src, .of_channels_eq rfl, rfl,
      .inr (by rw [channels_withEntries hlt, if_neg (by simp), hd.entries])⟩
  rw [← exec_endSide hlt] at hfirst
  generalize (do (← takeChannels (t.session .dst) .src).forM Relay.discardChannel : Op Unit).exec r
    = r₁ at hfirst ⊢
  obtain ⟨hundecided, hreaches⟩ := hfirst
  -- The channel is handed out now, unless somebody has stopped it already.
  rw [exec_endSide (hundecided.1.length ▸ hlt)]
  have hlast := forM_exec_induct (P := Undecided t r) (fun d r' h => h.stopChannel hd d)
    (r₁.channelsOn (t.session .dst) .dst) _
    (hundecided.handOut hd.destination hlt .dst)
  have hover := stopped_forM_stopChannel (r₁.channelsOn (t.session .dst) .dst)
    (r := r₁.withEntries (t.session .dst) .dst .empty) (hreaches.count.symm ▸ hc)
    (hreaches.entry.imp id fun hentry => mem_channelsOn_iff.mpr ⟨t.id, hentry⟩)
  -- So something has happened to it, and the source session has been told.
  refine ⟨hlast.1, hlast.2.resolve_left fun hb => ?_⟩
  have hstate := hb.state c hc (congrArg Terms.id hd.terms_eq)
  rw [hover, hd.opened] at hstate
  cases hstate

/-! ## The end of the channel -/

/-- A channel was ended, and its sessions were told what they are to be told of that. -/
structure Ended (e : Ending) (c : ChannelRef) (t : Terms) (r r' : Relay) : Prop where
  stopped : (r'.channel c).stopped = true
  terms_eq : (r'.channel c).terms = t
  sourceId : (r'.session (t.session .src)).id = t.sessionId .src
  sessions : r.sessions.length ≤ r'.sessions.length
  told : ∀ s, r'.told s t.id = r.told s t.id ++ e.notices t s

theorem Placed.ended_held (h : Placed c t r) : Ended .held c t r ((stopChannel c).exec r) := by
  have hc := lt_of_stopped_eq_false h.opened
  have hlogins := rel_exec_of_each (stopChannel_sameLogins c) r
  have hterms := (rel_exec_of_each (stopChannel_lasting c) r).terms c hc
  refine ⟨stopped_stopChannel hc, hterms.trans h.terms_eq, (hlogins.id _).trans h.sourceId,
    Nat.le_of_eq hlogins.length.symm, fun s => ?_⟩
  have hid : (r.channel c).id = t.id := congrArg Terms.id h.terms_eq
  have htold := told_stopChannel h.opened (fun side _ => ?_) s
  · rw [h.terms_eq, h.running, h.running] at htold
    rw [htold, List.append_assoc, Ending.notices]
    simp
  · rw [h.terms_eq, hid, Registry.mem_keys_iff]
    exact ⟨c, h.entries side⟩

theorem Placed.ended_byId (h : Placed c t r) :
    Ended .byId c t r (r.step (.closeChannel t.id)) := by
  rw [step_closeChannel, h.listed]
  obtain ⟨hstopped, hterms, hid, hsessions, htold⟩ := h.ended_held
  exact ⟨hstopped, hterms, hid, hsessions, fun s => by rw [htold]; simp [Ending.notices]⟩

theorem Placed.deserted (h : Placed c t r) : Deserted c t (r.marked (t.session .dst)) := by
  have hsame := marked_sameChannels r (t.session .dst)
  have hsession (s : SessionRef) : (r.marked (t.session .dst)).session s =
      if t.session .dst = s ∧ s < r.sessions.length then
        { r.session s with running := false } else r.session s := session_modifySession ..
  refine ⟨(hsame.stopped c).trans h.opened, (hsame.terms c).trans h.terms_eq, h.sole, h.distinct,
    fun side => by rw [hsame.entries, h.entries], ?_, ?_⟩
  · rw [hsession, if_neg fun heq => h.distinct heq.1.symm]
    exact h.running .src
  · rw [hsession, if_pos ⟨rfl, lt_of_running (h.running .dst)⟩]

/-- The session that was asked for is not told of the end, because it has ended itself. -/
theorem Placed.ended_destination (h : Placed c t r) :
    Ended .destination c t r ((stopSession (t.session .dst)).exec r) := by
  have hc := lt_of_stopped_eq_false h.opened
  have hterms := (rel_exec_of_each (stopSession_lasting (t.session .dst)) r).terms c hc
  rw [stopSession_of_running (h.running .dst)] at hterms ⊢
  obtain ⟨hlogins, hmourned⟩ := h.deserted.stopChannels
  have hmarked (s : SessionRef) : (r.marked (t.session .dst)).told s t.id = r.told s t.id :=
    told_congr (marked_congr Session.outbox (fun _ => rfl) s)
  have hmarkedId : ((r.marked (t.session .dst)).session (t.session .src)).id =
      (r.session (t.session .src)).id := marked_congr Session.id (fun _ => rfl) _
  have hlasting := rel_exec_of_each (stopChannels_lasting (t.session .dst))
    (r.marked (t.session .dst))
  generalize (stopChannels (t.session .dst)).exec (r.marked (t.session .dst)) = r₁ at *
  -- Logging the session out and giving its place back concerns neither channels nor frames.
  have hdismiss := rel_exec_of_each (dismiss_sameChannels (t.session .dst)) r₁
  have hout := rel_exec_of_each (dismiss_silent (t.session .dst)) r₁
  have hid := dismiss_congr (r := r₁) (s := t.session .dst) Session.id (fun _ => rfl)
    (t.session .src)
  generalize (dismiss (t.session .dst)).exec r₁ = r₂ at *
  have hdetach := rel_exec_of_each (detach_sameChannels (t.session .dst)) r₂
  have hsessions := (rel_exec_of_each (detach_sameSessions (t.session .dst)) r₂).sessions
  have hsession (s : SessionRef) :
      ((detach (t.session .dst)).exec r₂).session s = r₂.session s := by
    rw [session, hsessions, session]
  refine ⟨?_, hterms.trans h.terms_eq, ?_, ?_, fun s => ?_⟩
  · rw [hdetach.stopped, hdismiss.stopped]
    refine hmourned.ended c (Nat.lt_of_lt_of_le hc hlasting.length) ?_
    exact (hlasting.id_eq hc).trans (congrArg Terms.id h.terms_eq)
  · rw [hsession, hid, hlogins.id, hmarkedId]
    exact h.sourceId
  · have hlength : r₁.sessions.length = r.sessions.length := hlogins.length.trans (length_marked ..)
    rw [hsessions, ← hlength]
    exact hout.length
  · rw [told_congr (congrArg Session.outbox (hsession s)), told_congr (hout.outbox s),
      hmourned.told, hmarked]
    simp [Ending.notices]

theorem Placed.ended (h : Placed c t r) (e : Ending) :
    Ended e c t r ((e.op c t.id (t.session .dst)).exec r) := by
  cases e with
  | held => exact h.ended_held
  | byId => exact h.ended_byId
  | destination => exact h.ended_destination

/-! ## A request that is interrupted -/

variable {header : Header} {destination : SessionId} {dst : SessionRef}

/-- A channel that was made under an id that nobody has is in all its places, and nobody has been
told of it. -/
theorem placed_of_made (hunborn : Unborn r.nextChannelId r) (hrun : (r.session s).running = true)
    (hok : ((createChannel s destination).run r).1 = .ok (c, dst)) :
    Placed c (r.newChannel s dst).terms ((createChannel s destination).exec r) ∧
      ∀ u, ((createChannel s destination).exec r).told u r.nextChannelId = [] := by
  rcases createChannel_refused_or_placed (R := Lasting) r s destination reserveSlot_lasting
      releaseSlot_lasting with
    ⟨refusal, hrefused, -⟩ | ⟨found, hslot, hfound, hdst, hne, -, -⟩
  · rw [hrefused] at hok
    cases hok
  · have hfree {u : SessionRef} (hu : (r.session u).running = true) (side : Side) :
        r.nextChannelId ∉ ((r.session u).channels side).keys :=
      Registry.get?_eq_none_iff.mp (hunborn.entries u side hu)
    obtain ⟨hmade, hjoined, houtbox⟩ := createChannel_of_fresh
      (Registry.get?_eq_none_iff.mp hunborn.listed) (hfree hrun .src) (hfree hdst .dst) hslot hrun
      hdst hne hfound
    obtain ⟨rfl, rfl⟩ : c = r.channels.length ∧ dst = found := by
      rw [hmade] at hok
      cases hok
      exact ⟨rfl, rfl⟩
    have hlogins := rel_exec_of_each (createChannel_sameLogins s destination) r
    generalize (createChannel s destination).exec r = r₁ at *
    have hterms : (r₁.channel r.channels.length).terms = (r.newChannel s dst).terms :=
      (hjoined.terms _).trans (if_pos rfl)
    refine ⟨?_, fun u => (told_congr (houtbox u)).trans (hunborn.told u)⟩
    constructor
    case opened => exact (hjoined.stopped _).trans (if_pos rfl)
    case terms_eq => exact hterms
    case distinct => exact hne.symm
    case sourceId => exact hlogins.id s
    case sole =>
      -- Another channel of the id would have been there before, but nobody had the id.
      intro d hd hid
      by_contra hother
      have hdlt : d < r.channels.length := by
        have := hjoined.length
        omega
      have hold : (r₁.channel d).terms = (r.channel d).terms :=
        (hjoined.terms d).trans (if_neg hother)
      exact hunborn.fresh d hdlt ((congrArg Terms.id hold).symm.trans hid)
    case listed =>
      rw [Registry.get?_of_insert? hjoined.listed]
      exact if_pos rfl
    case entries =>
      intro side
      have hentries := hjoined.entries ((r.newChannel s dst).terms.session side) side
      rw [if_pos rfl] at hentries
      rw [Registry.get?_of_insert? hentries]
      exact if_pos rfl
    case running =>
      intro side
      rw [hlogins.running]
      cases side with
      | src => exact hrun
      | dst => exact hdst

theorem announce_sameLogins (s : SessionRef) (header : Header) (c : ChannelRef)
    (dst : SessionRef) : (announce s header c dst).Each SameLogins := by
  refine each_bind (startChannel_sameLogins c) fun _ => ?_
  refine each_bind (each_read _) fun channel => each_bind (each_read _) fun session => ?_
  exact each_bind (push_sameLogins ..) fun _ => push_sameLogins ..

/-- After its channel was made, a request announces it. -/
theorem advance_serveProxy (hrole : (r.session s).role.mayOriginate = true)
    (hin : (r.session s).loggedIn = true)
    (hok : ((createChannel s destination).run r).1 = .ok (c, dst)) (gap : Nat) :
    advance (1 + ((createChannel s destination).trace r).length + gap)
        (serveProxy s header destination) r =
      advance gap (announce s header c dst) ((createChannel s destination).exec r) := by
  rw [Nat.add_assoc]
  refine (advance_bind (read (·.session s)) _ _ r).trans ?_
  simp only [run_read, hrole, hin, Bool.not_true, Bool.false_eq_true, if_false]
  refine (advance_bind (createChannel s destination) _ gap r).trans ?_
  rw [hok]
  rfl

theorem Ended.quiet_before {e : Ending} {r₀ : Relay} (h : Ended e c t r r') (hs : Silent r₀ r) :
    Ended e c t r₀ r' :=
  ⟨h.stopped, h.terms_eq, h.sourceId, Nat.le_trans hs.length h.sessions, fun u => by
    rw [h.told, told_congr (hs.outbox u)]⟩

theorem Ended.quiet_after {e : Ending} (h : Ended e c t r r') (hc : SameChannels r' r'')
    (hl : SameLogins r' r'') (hs : Silent r' r'') : Ended e c t r r'' :=
  ⟨(hc.stopped c).trans h.stopped, (hc.terms c).trans h.terms_eq, (hl.id _).trans h.sourceId,
    Nat.le_trans h.sessions hs.length, fun u => by rw [told_congr (hs.outbox u), h.told]⟩

/-- If the channel is ended before anybody was invited, the notices are queued first. -/
theorem Placed.ended_early (h : Placed c t r) (e : Ending) (header : Header) {gap : Nat}
    (hgap : gap < 4) : ∃ channel session r', channel.terms = t ∧
      session.id = t.sessionId .src ∧ Ended e c t r r' ∧
      (advance gap (announce (t.session .src) header c (t.session .dst)) r).1.exec
          ((e.op c t.id (t.session .dst)).exec
            (advance gap (announce (t.session .src) header c (t.session .dst)) r).2) =
        (pushBoth header (t.session .src) (t.session .dst) channel session).exec r' := by
  have hsilent := rel_exec_of_each (startChannel_silent c) r
  have hstarted : Placed c t ((startChannel c).exec r) :=
    h.same (rel_exec_of_each (startChannel_sameChannels c) r)
      (rel_exec_of_each (startChannel_sameLogins c) r)
  have hended : Ended e c t r _ := (hstarted.ended e).quiet_before hsilent
  -- The steps before the invitation start the channel and look at the channel and at the session.
  match gap, hgap with
  | 0, _ =>
      have hended := h.ended e
      refine ⟨_, _, (startChannel c).exec ((e.op c t.id (t.session .dst)).exec r), ?_, ?_,
        hended.quiet_after (rel_exec_of_each (startChannel_sameChannels c) _)
          (rel_exec_of_each (startChannel_sameLogins c) _)
          (rel_exec_of_each (startChannel_silent c) _), rfl⟩
      · exact ((rel_exec_of_each (startChannel_sameChannels c) _).terms c).trans hended.terms_eq
      · exact ((rel_exec_of_each (startChannel_sameLogins c) _).id _).trans hended.sourceId
  | 1, _ => exact ⟨_, _, _, hended.terms_eq, hended.sourceId, hended, rfl⟩
  | 2, _ => exact ⟨_, _, _, hstarted.terms_eq, hended.sourceId, hended, rfl⟩
  | 3, _ => exact ⟨_, _, _, hstarted.terms_eq, hstarted.sourceId, hended, rfl⟩

/-- What a session is sent of the channel, when its end comes after so many steps of the
announcement: the fourth of them queues the invitation, and the fifth the answer. -/
def Ending.queued (e : Ending) (t : Terms) (privateAddr : Ipv4) (gap : Nat) (u : SessionRef) :
    List Response :=
  let invited := if u = t.session .dst then [t.invitation privateAddr] else []
  let answered := if u = t.session .src then [t.reply] else []
  if gap < 4 then e.notices t u ++ invited ++ answered
  else if gap = 4 then invited ++ e.notices t u ++ answered
  else invited ++ answered ++ e.notices t u

theorem Ending.queued_src (e : Ending) (h : t.session .src ≠ t.session .dst) (privateAddr : Ipv4)
    (gap : Nat) : e.queued t privateAddr gap (t.session .src) =
      if gap < 5 then [t.notice .src, t.reply] else [t.reply, t.notice .src] := by
  have hnotices : e.notices t (t.session .src) = [t.notice .src] := by simp [notices, h]
  rw [queued, hnotices, if_neg h, if_pos rfl]
  rcases Nat.lt_trichotomy gap 4 with hgap | rfl | hgap
  · rw [if_pos hgap, if_pos (Nat.lt_succ_of_lt hgap)]
    rfl
  · rfl
  · rw [if_neg (Nat.lt_asymm hgap), if_neg (Nat.ne_of_gt hgap), if_neg (Nat.not_lt_of_le hgap)]
    rfl

theorem Ending.queued_dst (e : Ending) (h : t.session .src ≠ t.session .dst) (privateAddr : Ipv4)
    (gap : Nat) : e.queued t privateAddr gap (t.session .dst) =
      if e = .destination then [t.invitation privateAddr]
      else if gap < 4 then [t.notice .dst, t.invitation privateAddr]
      else [t.invitation privateAddr, t.notice .dst] := by
  have hnotices : e.notices t (t.session .dst) =
      if e = .destination then [] else [t.notice .dst] := by
    simp [notices, h.symm]
  rw [queued, hnotices, if_pos rfl, if_neg h.symm]
  split_ifs <;> rfl

theorem Ending.queued_of_ne (e : Ending) (privateAddr : Ipv4) (gap : Nat) {u : SessionRef}
    (hsrc : u ≠ t.session .src) (hdst : u ≠ t.session .dst) :
    e.queued t privateAddr gap u = [] := by
  simp [queued, notices, hsrc, hdst]

/-- The fourth step of the announcement queues the invitation. -/
theorem Placed.advance_announce_four (h : Placed c t r) (header : Header) :
    ∃ privateAddr r', Placed c t r' ∧ r.sessions.length ≤ r'.sessions.length ∧
      (∀ u, r'.told u t.id =
        r.told u t.id ++ if u = t.session .dst then [t.invitation privateAddr] else []) ∧
      advance 4 (announce (t.session .src) header c (t.session .dst)) r =
        (push (t.session .src) header t.reply, r') := by
  have hstarted : Placed c t ((startChannel c).exec r) :=
    h.same (rel_exec_of_each (startChannel_sameChannels c) r)
      (rel_exec_of_each (startChannel_sameLogins c) r)
  have hsilent := rel_exec_of_each (startChannel_silent c) r
  have hfour : advance 4 (announce (t.session .src) header c (t.session .dst)) r =
      (push (t.session .src) header (((startChannel c).exec r).channel c).terms.reply,
        (push (t.session .dst) header (.access
          (((startChannel c).exec r).session (t.session .src)).id
          (((startChannel c).exec r).channel c).terms.id
          ((((startChannel c).exec r).channel c).terms.relay .dst).ip.wireIpv4
          ((((startChannel c).exec r).channel c).terms.relay .dst).port
          (((startChannel c).exec r).session (t.session .src)).privateAddr)).exec
            ((startChannel c).exec r)) := rfl
  rw [hstarted.terms_eq, hstarted.sourceId] at hfour
  have hlogins := rel_exec_of_each (push_sameLogins (t.session .dst) header (t.invitation
    (((startChannel c).exec r).session (t.session .src)).privateAddr)) ((startChannel c).exec r)
  refine ⟨(((startChannel c).exec r).session (t.session .src)).privateAddr, _,
    hstarted.same (rel_exec_of_each (push_sameChannels ..) _) hlogins, ?_, fun u => ?_, hfour⟩
  · exact Nat.le_trans hsilent.length (Nat.le_of_eq hlogins.length.symm)
  · rw [← told_congr (hsilent.outbox u)]
    exact told_push_of_lt (lt_of_running (hstarted.running .dst)) rfl

/-- Wherever the end of the channel gets in, its notices stand where it got in. -/
theorem Placed.told_interrupted (h : Placed c t r) (e : Ending) (header : Header) (gap : Nat)
    (hr' : r' = (advance gap (announce (t.session .src) header c (t.session .dst)) r).1.exec
      ((e.op c t.id (t.session .dst)).exec
        (advance gap (announce (t.session .src) header c (t.session .dst)) r).2)) :
    (r'.channel c).stopped = true ∧ (r'.channel c).terms = t ∧ ∃ privateAddr, ∀ u,
      r'.told u t.id = r.told u t.id ++ e.queued t privateAddr gap u := by
  have hlt (side : Side) : t.session side < r.sessions.length := lt_of_running (h.running side)
  rcases Nat.lt_trichotomy gap 4 with hgap | rfl | hgap
  · -- Nobody was told anything by then.
    obtain ⟨channel, session, r₁, hterms, hid, hended, hexec⟩ := h.ended_early e header hgap
    rw [hexec] at hr'
    have hsame : SameChannels r₁ r' := hr' ▸ rel_exec_of_each
      (each_bind (push_sameChannels ..) fun _ => push_sameChannels ..) r₁
    refine ⟨(hsame.stopped c).trans hended.stopped, (hsame.terms c).trans hended.terms_eq,
      session.privateAddr, fun u => ?_⟩
    rw [hr', told_pushBoth header hterms hid (Nat.lt_of_lt_of_le (hlt .src) hended.sessions)
      (Nat.lt_of_lt_of_le (hlt .dst) hended.sessions), hended.told, Ending.queued, if_pos hgap]
    simp only [List.append_assoc]
  · -- The invitation was queued, and the answer was not.
    obtain ⟨privateAddr, r₁, hplaced, hlength, htold, hfour⟩ := h.advance_announce_four header
    rw [hfour] at hr'
    have hended := hplaced.ended e
    generalize (e.op c t.id (t.session .dst)).exec r₁ = r₂ at hr' hended
    have hsame : SameChannels r₂ r' := hr' ▸ rel_exec_of_each (push_sameChannels ..) r₂
    refine ⟨(hsame.stopped c).trans hended.stopped, (hsame.terms c).trans hended.terms_eq,
      privateAddr, fun u => ?_⟩
    have hsrc := Nat.lt_of_lt_of_le (hlt .src) (Nat.le_trans hlength hended.sessions)
    rw [hr', told_push_of_lt hsrc rfl, hended.told, htold, Ending.queued,
      if_neg (Nat.lt_irrefl 4), if_pos (rfl : 4 = 4)]
    simp only [List.append_assoc]
  · -- All was said, and the end comes behind it.
    have hall : ((announce (t.session .src) header c (t.session .dst)).trace r).length ≤ gap := hgap
    rw [advance_of_le hall] at hr'
    have hplaced : Placed c t ((announce (t.session .src) header c (t.session .dst)).exec r) :=
      h.same (rel_exec_of_each (announce_sameChannels ..) r)
        (rel_exec_of_each (announce_sameLogins ..) r)
    have hended := hplaced.ended e
    rw [hr']
    refine ⟨hended.stopped, hended.terms_eq, (r.session (t.session .src)).privateAddr, fun u => ?_⟩
    have hsource : (r.channel c).terms.sessionId .src = (r.session (t.session .src)).id := by
      rw [h.terms_eq, h.sourceId]
    have htold := told_announce header hsource (hlt .src) (hlt .dst) u
    rw [h.terms_eq] at htold
    rw [Ending.queued, if_neg (by omega), if_neg (by omega)]
    refine (hended.told u).trans ?_
    rw [htold]
    simp only [List.append_assoc]

/-! ## The order in which a channel and its end are told -/

/-- A request whose channel was made has so many turns more; then somebody ends the channel, and
then the request has the others. -/
def interrupted (r : Relay) (s : SessionRef) (header : Header) (destination : SessionId)
    (stop : Op Unit) (gap b d : Nat) : Pool Relay Unit :=
  (Pool.start r [serveProxy s header destination, stop]).play
    (List.replicate (1 + ((createChannel s destination).trace r).length + gap) 0 ++
      List.replicate b 1 ++ List.replicate d 0)

/-- What everybody is told of a channel that is ended while it is announced. The announcement
starts the channel, looks at the channel and at the session that asked, and queues the invitation
and the answer. -/
structure ToldInterrupted (e : Ending) (gap : Nat) (c : ChannelRef) (s dst : SessionRef)
    (r : Relay) : Prop where
  stopped : (r.channel c).stopped = true
  /-- The session that asked is told of the end first, unless it has had its answer by then. -/
  requester : r.told s (r.channel c).id =
    if gap < 5 then [(r.channel c).terms.notice .src, (r.channel c).terms.reply]
    else [(r.channel c).terms.reply, (r.channel c).terms.notice .src]
  /-- The session that was asked for is told of the end first, unless it has been invited by then;
  if it has ended itself it is told of no end. -/
  destination : ∃ privateAddr, r.told dst (r.channel c).id =
    if e = .destination then [(r.channel c).terms.invitation privateAddr]
    else if gap < 4 then
      [(r.channel c).terms.notice .dst, (r.channel c).terms.invitation privateAddr]
    else [(r.channel c).terms.invitation privateAddr, (r.channel c).terms.notice .dst]
  others : ∀ u, u ≠ s → u ≠ dst → r.told u (r.channel c).id = []

/-- A channel that somebody ends while it is announced is told of in order to those who had been
told of it by then, and the wrong way round to the others. -/
theorem told_in_order_of_progress (config : Config) (events : List Event) {s dst : SessionRef}
    {c : ChannelRef} (header : Header) (destination : SessionId)
    (hrole : ((Relay.after { config } events).session s).role.mayOriginate = true)
    (hin : ((Relay.after { config } events).session s).loggedIn = true)
    (hfresh : ∀ d < (Relay.after { config } events).channels.length,
      ((Relay.after { config } events).channel d).id ≠
        (Relay.after { config } events).nextChannelId)
    (hok : ((createChannel s destination).run (Relay.after { config } events)).1 = .ok (c, dst))
    (e : Ending) (gap b d : Nat)
    (hidle : (interrupted (Relay.after { config } events) s header destination
      (e.op c (Relay.after { config } events).nextChannelId dst) gap b d).idle) :
    ToldInterrupted e gap c s dst (interrupted (Relay.after { config } events) s header destination
      (e.op c (Relay.after { config } events).nextChannelId dst) gap b d).state := by
  have hsettled := (sound_after config events).settled
  have hunborn := unborn_after config events hfresh
  generalize Relay.after { config } events = r at *
  have hstate : (interrupted r s header destination (e.op c r.nextChannelId dst) gap b d).state =
      _ := Pool.state_of_overtaken hidle
  rw [advance_serveProxy hrole hin hok] at hstate
  generalize (interrupted r s header destination (e.op c r.nextChannelId dst) gap b d).state = r'
    at hstate ⊢
  obtain ⟨hplaced, hnone⟩ := placed_of_made hunborn (hsettled.running hin) hok
  obtain ⟨hstopped, hterms, privateAddr, htold⟩ := hplaced.told_interrupted e header gap hstate
  have hqueued (u : SessionRef) := (htold u).trans (congrArg (· ++ _) (hnone u))
  have hid := congrArg Terms.id hterms
  refine ⟨hstopped, ?_, ⟨privateAddr, ?_⟩, fun u hs hdst => ?_⟩
  · rw [hterms]
    exact (hid ▸ hqueued s).trans (e.queued_src hplaced.distinct privateAddr gap)
  · rw [hterms]
    exact (hid ▸ hqueued dst).trans (e.queued_dst hplaced.distinct privateAddr gap)
  · exact (hid ▸ hqueued u).trans (e.queued_of_ne privateAddr gap hs hdst)

/-- Two clients are logged in, and the second asks to be joined to the first. After so many steps
of the announcement somebody stops the channel. -/
def stoppedAmidst (gap : Nat) : Pool Relay Unit :=
  interrupted (Relay.after {} linked.dropLast) 1 (.fresh .proxy) 1000
    (Ending.held.op 0 (Relay.after {} linked.dropLast).nextChannelId 0) gap 20 20

theorem told_in_order_of_progress_invited :
    ((Relay.after {} linked.dropLast).session 1).role.mayOriginate = true ∧
      ((Relay.after {} linked.dropLast).session 1).loggedIn = true ∧
      ((createChannel 1 1000).run (Relay.after {} linked.dropLast)).1 = .ok (0, 0) ∧
      (stoppedAmidst 4).idle ∧ ToldInterrupted .held 4 0 1 0 (stoppedAmidst 4).state ∧
      ((stoppedAmidst 4).state.told 0 1).map Response.opcode = [.access, .stopProxy] ∧
      ((stoppedAmidst 4).state.told 1 1).map Response.opcode = [.stopProxy, .proxy] := by
  have hrole : ((Relay.after {} linked.dropLast).session 1).role.mayOriginate = true := by
    decide +kernel
  have hin : ((Relay.after {} linked.dropLast).session 1).loggedIn = true := by decide +kernel
  have hfresh : ∀ d < (Relay.after {} linked.dropLast).channels.length,
      ((Relay.after {} linked.dropLast).channel d).id ≠
        (Relay.after {} linked.dropLast).nextChannelId := by decide +kernel
  have hok : ((createChannel 1 1000).run (Relay.after {} linked.dropLast)).1 = .ok (0, 0) := by
    decide +kernel
  have hidle : (stoppedAmidst 4).idle := by decide +kernel
  refine ⟨hrole, hin, hok, hidle, ?_, by decide +kernel, by decide +kernel⟩
  exact told_in_order_of_progress {} linked.dropLast (.fresh .proxy) 1000 hrole hin hfresh hok .held
    4 20 20 hidle

/-- If the channel is stopped when it was only just made, both clients are told first that it is
over and then that it is there. -/
theorem end_told_before_channel :
    (stoppedAmidst 0).idle ∧
      ((stoppedAmidst 0).state.told 1 1).map Response.opcode = [.stopProxy, .proxy] ∧
      ((stoppedAmidst 0).state.told 0 1).map Response.opcode = [.stopProxy, .access] ∧
      ((stoppedAmidst 0).state.channel 0).stopped = true := by
  refine ⟨?_, ?_, ?_, ?_⟩ <;> decide +kernel

end PeerRelay.Relay
