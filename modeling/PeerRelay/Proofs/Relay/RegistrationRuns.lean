import PeerRelay.Proofs.Relay.Joining
import PeerRelay.Proofs.Relay.LoginRuns

/-!
# Registration over whole runs

Every event leaves the channels that are not over in all their places, and both
sessions of such a channel are there and logged in. The counter of channel ids
has 32 bits, so this is told of runs that do not make it come round.
-/

namespace PeerRelay.Relay

open Steps
open Wire (Frame)

variable {r r' : Relay} {s : SessionRef}

/-- Both sessions of every channel that is not over are logged in under the ids that the
channel was made with. -/
structure Attended (r : Relay) : Prop where
  loggedIn : ∀ c side, (r.channel c).stopped = false →
    (r.session ((r.channel c).terms.session side)).loggedIn = true
  sessionId : ∀ c side, (r.channel c).stopped = false →
    (r.channel c).terms.sessionId side = (r.session ((r.channel c).terms.session side)).id
  distinct : ∀ c, (r.channel c).stopped = false →
    (r.channel c).terms.session .src ≠ (r.channel c).terms.session .dst
  discoverable : ∀ c, (r.channel c).stopped = false →
    (r.session ((r.channel c).terms.session .dst)).role.isDiscoverable = true

/-- What is known of a session that is logged in is what it was. -/
def Kept (r r' : Relay) (s : SessionRef) : Prop :=
  (r.session s).loggedIn = true → (r'.session s).loggedIn = true ∧
    (r'.session s).id = (r.session s).id ∧ (r'.session s).role = (r.session s).role

theorem SameCredentials.kept (h : SameCredentials r r') (s : SessionRef) : Kept r r' s :=
  fun hs => ⟨(h.loggedIn s).trans hs, h.id s, h.role s hs⟩

theorem SameSessions.kept (h : SameSessions r r') (s : SessionRef) : Kept r r' s := by
  have hsame : r'.session s = r.session s := by rw [session, h.sessions, session]
  intro hs
  rw [hsame]
  exact ⟨hs, rfl, rfl⟩

theorem Attended.congr (h : Attended r)
    (hopen : ∀ c, (r'.channel c).stopped = false →
      (r.channel c).stopped = false ∧ (r'.channel c).terms = (r.channel c).terms)
    (hkept : ∀ c side, (r'.channel c).stopped = false →
      Kept r r' ((r'.channel c).terms.session side)) : Attended r' := by
  -- An open channel was open, and its sessions are known under the same id and role.
  have hend (c : ChannelRef) (side : Side) (hc : (r'.channel c).stopped = false) :
      (r'.session ((r'.channel c).terms.session side)).loggedIn = true ∧
        (r'.session ((r'.channel c).terms.session side)).id =
          (r.session ((r.channel c).terms.session side)).id ∧
        (r'.session ((r'.channel c).terms.session side)).role =
          (r.session ((r.channel c).terms.session side)).role := by
    obtain ⟨ho, hterms⟩ := hopen c hc
    have hknown := hkept c side hc
    rw [hterms] at hknown ⊢
    exact hknown (h.loggedIn c side ho)
  constructor
  · intro c side hc
    exact (hend c side hc).1
  · intro c side hc
    obtain ⟨ho, hterms⟩ := hopen c hc
    obtain ⟨-, hid, -⟩ := hend c side hc
    rw [hid, hterms]
    exact h.sessionId c side ho
  · intro c hc
    obtain ⟨ho, hterms⟩ := hopen c hc
    rw [hterms]
    exact h.distinct c ho
  · intro c hc
    obtain ⟨ho, -⟩ := hopen c hc
    obtain ⟨-, -, hrole⟩ := hend c .dst hc
    rw [hrole]
    exact h.discoverable c ho

/-- A channel that is open after something that made none was open before. -/
theorem Lasting.open_of_length_eq (h : Lasting r r')
    (hlen : r'.channels.length = r.channels.length) (c : ChannelRef)
    (hc : (r'.channel c).stopped = false) :
    (r.channel c).stopped = false ∧ (r'.channel c).terms = (r.channel c).terms := by
  have hlt : c < r.channels.length := hlen ▸ lt_of_stopped_eq_false hc
  exact ⟨h.open_before hlt hc, h.terms c hlt⟩

/-- Every open channel is in its places and both its sessions are logged in. -/
structure Ordered (r : Relay) : Prop where
  registered : Registered r Complete
  attended : Attended r

namespace Ordered

theorem same (h : Ordered r) (hc : SameChannels r r') (hl : ∀ s, Kept r r' s) : Ordered r' := by
  refine ⟨h.registered.sameChannels hc, h.attended.congr (fun c ho => ?_) fun _ _ _ => hl _⟩
  exact ⟨(hc.stopped c).symm.trans ho, hc.terms c⟩

theorem stopChannel (h : Ordered r) (hn : r.channels.length < 2 ^ 32 - 1) (c : ChannelRef) :
    Ordered ((stopChannel c).exec r) := by
  obtain ⟨hregistered, -, hlen⟩ := h.registered.stopChannel (c := c) hn not_false
  have hlogins := (rel_exec_of_each (stopChannel_sameLogins c) r).credentials
  have hlasting := rel_exec_of_each (stopChannel_lasting c) r
  exact ⟨hregistered,
    h.attended.congr (hlasting.open_of_length_eq hlen) fun _ _ _ => hlogins.kept _⟩

/-- When a session ends, the channels that stay are those it had no end of. -/
theorem stopSession (h : Ordered r) (hn : r.channels.length < 2 ^ 32 - 1) (s : SessionRef) :
    Ordered ((stopSession s).exec r) := by
  by_cases hrun : (r.session s).running = true
  · rw [stopSession_of_running hrun]
    have hmarked : Ordered (r.marked s) :=
      h.same (marked_sameChannels r s) (marked_credentials r s).kept
    have hs : s < (r.marked s).sessions.length := by
      rw [length_marked]
      exact lt_of_running hrun
    have hn' : (r.marked s).channels.length < 2 ^ 32 - 1 := hn
    obtain ⟨hregistered, hlen, hnone⟩ := hmarked.registered.stopChannels hn' hs
    have hlogins := (rel_exec_of_each (stopChannels_sameLogins s) (r.marked s)).credentials
    have hlasting := rel_exec_of_each (stopChannels_lasting s) (r.marked s)
    have hstopped : Ordered ((stopChannels s).exec (r.marked s)) :=
      ⟨hregistered, hmarked.attended.congr (hlasting.open_of_length_eq hlen)
        fun _ _ _ => hlogins.kept _⟩
    generalize (stopChannels s).exec (r.marked s) = r₁ at hstopped hnone
    -- The login can go now, since no open channel has an end at the session any more.
    have hdismissed : Ordered ((dismiss s).exec r₁) := by
      have hsame := rel_exec_of_each (dismiss_sameChannels s) r₁
      refine ⟨hstopped.registered.sameChannels hsame,
        hstopped.attended.congr (fun c ho => ⟨(hsame.stopped c).symm.trans ho, hsame.terms c⟩) ?_⟩
      intro c side ho hin
      rw [hsame.stopped] at ho
      rw [hsame.terms] at hin ⊢
      refine ⟨(loggedIn_dismiss _).mpr ⟨hin, hnone c side ho⟩, ?_, ?_⟩
      · exact dismiss_congr Session.id (fun _ => rfl) _
      · exact dismiss_congr Session.role (fun _ => rfl) _
    have hdetached := rel_exec_of_each (detach_sameSessions s) ((dismiss s).exec r₁)
    exact hdismissed.same (rel_exec_of_each (detach_sameChannels s) _) hdetached.kept
  · rw [stopSession_of_ended (Bool.eq_false_iff.mpr hrun)]
    exact h

/-! ## Requests -/

/-- The sessions of a new channel are logged in, different, and the one that was asked for
can be found by everyone. -/
theorem createChannel (h : Ordered r) (hset : Settled r) (hn : r.channels.length < 2 ^ 32 - 1)
    (hin : (r.session s).loggedIn = true) (id : SessionId) :
    Ordered ((createChannel s id).exec r) := by
  have hsame := rel_exec_of_each (createChannel_sameLogins s id) r
  rcases createChannel_cases h.registered hn (hset.running hin) id with
    ⟨refusal, hrun⟩ | ⟨dst, hfound, hne, -, hj⟩
  · rw [exec, hrun]
    exact h
  · obtain ⟨hdst, hdiscoverable, -⟩ := (hset.logins.index_get id dst).mp hfound
    generalize (Relay.createChannel s id).exec r = r' at *
    have hend (side : Side) :
        (r.session ((r.newChannel s dst).terms.session side)).loggedIn = true := by
      cases side
      · exact hin
      · exact hdst
    have hidOf (side : Side) : (r.newChannel s dst).terms.sessionId side =
        (r.session ((r.newChannel s dst).terms.session side)).id := by
      cases side <;> rfl
    refine ⟨h.registered.joined hn hj, fun c side ho => ?_, fun c side ho => ?_, fun c ho => ?_,
      fun c ho => ?_⟩
    all_goals
      rw [hj.stopped] at ho
      rw [hj.terms]
      split at ho
    · rw [if_pos ‹_›, hsame.loggedIn]
      exact hend side
    · rw [if_neg ‹_›, hsame.loggedIn]
      exact h.attended.loggedIn c side ho
    · rw [if_pos ‹_›, hsame.id]
      exact hidOf side
    · rw [if_neg ‹_›, hsame.id]
      exact h.attended.sessionId c side ho
    · rw [if_pos ‹_›]
      exact hne.symm
    · rw [if_neg ‹_›]
      exact h.attended.distinct c ho
    · rw [if_pos ‹_›, hsame.role]
      exact hdiscoverable
    · rw [if_neg ‹_›, hsame.role]
      exact h.attended.discoverable c ho

theorem bind_quiet {α β : Type} {p : Op α} {f : α → Op β} (h : Ordered (p.exec r))
    (hc : ∀ a, (f a).Each SameChannels) (hl : ∀ a, (f a).Each SameLogins) :
    Ordered ((p >>= f).exec r) := by
  rw [exec_bind]
  exact h.same (rel_exec_of_each (hc _) _) (rel_exec_of_each (hl _) _).credentials.kept

theorem quiet {α : Type} {p : Op α} (h : Ordered r) (hc : p.Each SameChannels)
    (hl : p.Each SameLogins) : Ordered (p.exec r) :=
  h.same (rel_exec_of_each hc r) (rel_exec_of_each hl r).credentials.kept

theorem serveProxy (h : Ordered r) (hset : Settled r) (hn : r.channels.length < 2 ^ 32 - 1)
    (header : Wire.Header) (destination : SessionId) :
    Ordered ((serveProxy s header destination).exec r) := by
  have hpush (response : Response) : Ordered ((push s header response).exec r) :=
    h.quiet (push_sameChannels ..) (push_sameLogins ..)
  by_cases hrole : (r.session s).role.mayOriginate = true
  · by_cases hin : (r.session s).loggedIn = true
    · rw [Relay.serveProxy, exec_bind]
      simp only [run_read, hrole, hin, Bool.not_true, Bool.false_eq_true, if_false]
      refine (h.createChannel hset hn hin destination).bind_quiet (fun created => ?_)
        fun created => ?_
      · split
        · exact push_sameChannels ..
        · refine each_bind (startChannel_sameChannels _) fun _ => ?_
          refine each_bind (each_read _) fun channel => each_bind (each_read _) fun session => ?_
          exact each_bind (push_sameChannels ..) fun _ => push_sameChannels ..
      · split
        · exact push_sameLogins ..
        · refine each_bind (startChannel_sameLogins _) fun _ => ?_
          refine each_bind (each_read _) fun channel => each_bind (each_read _) fun session => ?_
          exact each_bind (push_sameLogins ..) fun _ => push_sameLogins ..
    · rw [Relay.serveProxy, exec_bind]
      simp only [run_read, hrole, hin, Bool.not_true, Bool.not_false, Bool.false_eq_true,
        if_false, if_true]
      exact hpush _
  · rw [Relay.serveProxy, exec_bind]
    simp only [run_read, hrole, Bool.not_false, if_true]
    exact hpush _

theorem serveLogin (h : Ordered r) (hrun : (r.session s).running = true) (header : Wire.Header)
    (guid : Guid) (privateAddr : Ipv4) :
    Ordered ((serveLogin s header guid privateAddr).exec r) := by
  refine h.same (rel_exec_of_each (serveLogin_sameChannels ..) r) ?_
  intro t
  rcases serveLogin_cases hrun header guid privateAddr with
    hsame | ⟨hskipped, -⟩ | ⟨hout, hadmitted⟩
  · exact hsame.credentials.kept t
  · intro ht
    exact ⟨(hskipped.congr Session.loggedIn (fun _ _ => rfl) t).trans ht,
      hskipped.congr Session.id (fun _ _ => rfl) t, hskipped.congr Session.role (fun _ _ => rfl) t⟩
  · intro ht
    -- The session that logs in was not logged in, so it is another.
    have hts : t ≠ s := by
      rintro rfl
      cases hout.symm.trans ht
    rw [hadmitted.other hts]
    exact ⟨ht, rfl, rfl⟩

theorem servePiece (h : Ordered r) (hset : Settled r) (hrun : (r.session s).running = true)
    (hn : r.channels.length < 2 ^ 32 - 1) (piece : Frame.Piece) :
    Ordered ((servePiece s piece).exec r) := by
  cases piece with
  | skip m1 m2 version =>
      exact h.quiet (each_modify fun r => sameChannels_count _ r)
        (each_modify fun r => sameLogins_count _ r)
  | frame frame =>
      unfold Relay.servePiece serveFrame
      dsimp only
      split
      · exact h
      · exact h.serveLogin hrun ..
      · exact h.serveProxy hset hn ..
      · exact h.quiet (servePeers_sameChannels ..) (servePeers_sameLogins ..)
      · exact h.quiet (refuseMalformed_sameChannels ..) (refuseMalformed_sameLogins ..)
      · exact h

theorem servePieces (h : Ordered r) (hset : Settled r) (hrun : (r.session s).running = true)
    (pieces : List Frame.Piece)
    (hn : ((servePieces s pieces).exec r).channels.length < 2 ^ 32 - 1) :
    Ordered ((Relay.servePieces s pieces).exec r) := by
  induction pieces generalizing r with
  | nil => exact h
  | cons piece rest ih =>
      obtain ⟨hpiece, hstill⟩ := hset.servePiece hrun piece
      rw [exec_servePieces_cons piece rest hstill] at hn ⊢
      have hone := (rel_exec_of_each (servePiece_lasting s piece) r).length
      have hrest := (rel_exec_of_each (servePieces_lasting s rest)
        ((Relay.servePiece s piece).exec r)).length
      have hn₁ := Nat.lt_of_le_of_lt hrest hn
      exact ih (h.servePiece hset hrun (Nat.lt_of_le_of_lt hone hn₁) piece) hpiece hstill hn

end Ordered

/-! ## Events -/

/-- Between two events the logins are settled, and the channels are in order unless their
ids have run out. -/
structure Sound (r : Relay) : Prop where
  settled : Settled r
  ordered : r.channels.length < 2 ^ 32 - 1 → Ordered r

theorem Sound.stopSession (h : Sound r) (s : SessionRef) : Sound ((stopSession s).exec r) := by
  have hlen := (rel_exec_of_each (stopSession_lasting s) r).length
  refine ⟨h.settled.stopSession s, ?_⟩
  intro hn
  have hn' := Nat.lt_of_le_of_lt hlen hn
  exact (h.ordered hn').stopSession hn' s

theorem Sound.of_same {α : Type} {p : Op α} (h : Sound r) (hset : Settled (p.exec r))
    (hc : p.Each SameChannels) (hl : ∀ s, Kept r (p.exec r) s) : Sound (p.exec r) := by
  have hsame := rel_exec_of_each hc r
  exact ⟨hset, fun hn => (h.ordered (hsame.length ▸ hn)).same hsame hl⟩

theorem Sound.quiet {p : Op Unit} (h : Sound r) (hc : p.Each SameChannels)
    (hl : p.Each SameLogins) : Sound (p.exec r) :=
  h.of_same (h.settled.sameLogins (rel_exec_of_each hl r)) hc
    (rel_exec_of_each hl r).credentials.kept

theorem Sound.stopChannel (h : Sound r) (c : ChannelRef) : Sound ((stopChannel c).exec r) := by
  have hlen := (rel_exec_of_each (stopChannel_lasting c) r).length
  refine ⟨h.settled.sameLogins (rel_exec_of_each (stopChannel_sameLogins c) r), ?_⟩
  intro hn
  have hn' := Nat.lt_of_le_of_lt hlen hn
  exact (h.ordered hn').stopChannel hn' c

theorem Sound.startSession (h : Sound r) (role : Role) (peer localAddr : SocketAddr)
    (held : Bool) : Sound ((startSession role peer localAddr held).exec r) :=
  h.of_same (h.settled.startSession role peer localAddr held) (startSession_sameChannels ..)
    (h.settled.startSession_credentials role peer localAddr held).kept

theorem Sound.accept (h : Sound r) (role : Role) (peer localAddr : SocketAddr) (held : Bool) :
    Sound ((accept role peer localAddr held).exec r) := by
  have hsessions := rel_exec_of_each reserveConnection_sameSessions r
  have hreserved : Sound (reserveConnection.exec r) :=
    h.of_same (h.settled.sameSessions hsessions) reserveConnection_sameChannels hsessions.kept
  simp only [Relay.accept, exec_bind]
  split
  · rw [exec_bind]
    exact hreserved.startSession role peer localAddr held
  · exact hreserved

/-- The channels are in order between two frames as well. -/
theorem Sound.midway (h : Sound r) (hrun : (r.session s).running = true) (data : Bytes) (n : Nat) :
    Sound (r.midway s data n) := by
  have hsame := sameLogins_unread r s (Frame.drain ((r.session s).unread ++ data)).2
  refine ⟨(h.settled.midway hrun data n).1, ?_⟩
  intro hn
  have hlen := (rel_exec_of_each (servePieces_lasting s ((r.pieces s data).take n))
    (r.modifySession s fun session =>
      { session with unread := (Frame.drain ((r.session s).unread ++ data)).2 })).length
  have hread := (h.ordered (Nat.lt_of_le_of_lt hlen hn)).same
    (SameChannels.modifySession r s (f := fun session =>
      { session with unread := (Frame.drain ((r.session s).unread ++ data)).2 })
      fun _ side => by cases side <;> rfl) hsame.credentials.kept
  exact hread.servePieces (h.settled.sameLogins hsame) ((hsame.running s).trans hrun) _ hn

theorem Sound.bytes (h : Sound r) (s : SessionRef) (data : Bytes) :
    Sound (r.step (.bytes s data)) := by
  by_cases hrun : (r.session s).running = true
  · rw [step_bytes hrun]
    exact h.midway hrun data _
  · rw [step_bytes_of_ended (Bool.eq_false_iff.mpr hrun)]
    exact h

/-- Every event keeps the channels in order. -/
theorem Sound.step (h : Sound r) (e : Event) : Sound (r.step e) := by
  cases e with
  | connect role peer localAddr =>
      simp only [Relay.step, Event.op, exec_bind]
      exact h.accept role peer localAddr false
  | reserve =>
      have hsessions := rel_exec_of_each reserveConnection_sameSessions r
      simp only [Relay.step, Event.op, exec_bind]
      exact h.of_same (h.settled.sameSessions hsessions) reserveConnection_sameChannels
        hsessions.kept
  | begin role peer localAddr =>
      simp only [Relay.step, Event.op, exec_bind]
      exact h.startSession role peer localAddr false
  | abandon =>
      have hsessions := rel_exec_of_each releaseConnection_sameSessions r
      exact h.of_same (h.settled.sameSessions hsessions) releaseConnection_sameChannels
        hsessions.kept
  | bytes s data => exact h.bytes s data
  | disconnect s => exact h.stopSession s
  | datagram c side sender data =>
      exact h.quiet (datagram_sameChannels ..) (datagram_sameLogins ..)
  | due duty =>
      cases duty with
      | login s =>
          rw [step_due_login]
          split
          · exact h
          · exact h.stopSession s
      | poll c =>
          rw [step_due_poll]
          split
          · exact h.stopChannel c
          · exact h
      | report c => exact h.quiet (report_sameChannels c) (report_sameLogins c)
  | closeSession id =>
      rw [step_closeSession]
      split
      · exact h
      · exact h.stopSession _
  | closeChannel id =>
      rw [step_closeChannel]
      split
      · exact h
      · exact h.stopChannel _
  | stopAll =>
      rw [step_stopAll]
      exact forM_exec_induct (P := Sound) (fun s _ h => h.stopSession s) _ _ h
  | pass nanoseconds =>
      have hsessions : SameSessions r (r.step (.pass nanoseconds)) := ⟨rfl, rfl, rfl, rfl, rfl⟩
      exact h.of_same (h.settled.sameSessions hsessions)
        (each_modify fun _ => .of_eq rfl)
        hsessions.kept
  | sync =>
      have hsessions : SameSessions r (r.step .sync) := ⟨rfl, rfl, rfl, rfl, rfl⟩
      exact h.of_same (h.settled.sameSessions hsessions)
        (each_modify fun _ => .of_eq rfl)
        hsessions.kept

theorem sound_init (config : Config) : Sound { config } := by
  refine ⟨settled_init config, fun _ => ?_⟩
  have hnone (c : ChannelRef) : (Relay.channel { config } c).stopped = true := by
    rw [channel_of_le c.zero_le]
    rfl
  have hsession (s : SessionRef) : Relay.session { config } s = .vacant := session_of_le s.zero_le
  refine ⟨⟨fun c hc => (Nat.not_lt_zero c hc).elim, rfl, fun id c => ?_, fun s side id c => ?_,
    rfl⟩, ⟨fun c side hc => ?_, fun c side hc => ?_, fun c hc => ?_, fun c hc => ?_⟩⟩
  · refine ⟨(nomatch ·), fun hc => ?_⟩
    cases (hnone c).symm.trans hc.1
  · rw [hsession]
    cases side
    all_goals
      refine ⟨(nomatch ·), fun hc => ?_⟩
      cases (hnone c).symm.trans hc.1
  all_goals cases (hnone c).symm.trans hc

theorem Sound.after (h : Sound r) (events : List Event) : Sound (r.after events) := by
  induction events generalizing r with
  | nil => exact h
  | cons e rest ih => exact ih (h.step e)

theorem sound_after (config : Config) (events : List Event) :
    Sound (Relay.after { config } events) :=
  (sound_init config).after events

/-! ## Where a channel is found -/

/-- A channel that is not over is listed and registered with both of its sessions, and
nothing else is. -/
structure ExactlyRegistered (r : Relay) : Prop where
  /-- A channel is listed under its id as long as it is not over, -/
  listed_iff : ∀ c < r.channels.length,
    r.listed.get? (r.channel c).id = some c ↔ (r.channel c).stopped = false
  /-- and as long as that its source session has it among the channels it asked for, -/
  src_iff : ∀ c < r.channels.length,
    (r.session (r.channel c).src.session).srcChannels.get? (r.channel c).id = some c ↔
      (r.channel c).stopped = false
  /-- and its destination session among those that others asked for. -/
  dst_iff : ∀ c < r.channels.length,
    (r.session (r.channel c).dst.session).dstChannels.get? (r.channel c).id = some c ↔
      (r.channel c).stopped = false
  /-- Both sessions of a channel that is not over are there and logged in, under the ids
  that its ends have noted. -/
  attended : ∀ c side, (r.channel c).stopped = false →
    (r.session ((r.channel c).endpoint side).session).running = true ∧
      (r.session ((r.channel c).endpoint side).session).loggedIn = true ∧
      ((r.channel c).endpoint side).sessionId =
        (r.session ((r.channel c).endpoint side).session).id
  /-- These ids were handed out at a login, -/
  sessionId_issued : ∀ c side, (r.channel c).stopped = false →
    ((r.channel c).endpoint side).sessionId ∈ r.issued
  /-- and are not zero, as long as the counter of session ids has not come round. -/
  sessionId_ne_zero : r.issued.length ≤ 2 ^ 32 - 1000 → ∀ c side,
    (r.channel c).stopped = false → ((r.channel c).endpoint side).sessionId ≠ 0
  distinct : ∀ c, (r.channel c).stopped = false →
    (r.channel c).src.session ≠ (r.channel c).dst.session
  discoverable : ∀ c, (r.channel c).stopped = false →
    (r.session (r.channel c).dst.session).role.isDiscoverable = true
  slots_eq : r.slots = r.listed.size
  /-- The list has no entry but that of a channel that is not over, under its id, -/
  listed_only : ∀ id c, r.listed.get? id = some c →
    c < r.channels.length ∧ (r.channel c).stopped = false ∧ (r.channel c).id = id
  /-- and no session has one but that of a channel that is not over and has an end at it. -/
  entries_only : ∀ s side id c, ((r.session s).channels side).get? id = some c →
    c < r.channels.length ∧ (r.channel c).stopped = false ∧ (r.channel c).id = id ∧
      ((r.channel c).endpoint side).session = s

theorem Sound.exactlyRegistered (h : Sound r) (hn : r.channels.length < 2 ^ 32 - 1) :
    ExactlyRegistered r := by
  obtain ⟨hregistered, hattended⟩ := h.ordered hn
  have hentry (c : ChannelRef) (side : Side) :
      ((r.session ((r.channel c).endpoint side).session).channels side).get? (r.channel c).id =
        some c ↔ (r.channel c).stopped = false := by
    rw [hregistered.entries_get]
    exact ⟨fun hc => hc.1, fun ho => ⟨ho, rfl, rfl, not_false⟩⟩
  have hissued (c : ChannelRef) (side : Side) (ho : (r.channel c).stopped = false) :
      ((r.channel c).endpoint side).sessionId ∈ r.issued := by
    have hmem := h.settled.logins.id_mem _ (.inl (hattended.loggedIn c side ho))
    rw [← hattended.sessionId c side ho] at hmem
    exact hmem
  refine ⟨?_, fun c _ => hentry c .src, fun c _ => hentry c .dst, ?_, hissued, ?_,
    hattended.distinct, hattended.discoverable, hregistered.slots_eq, ?_, ?_⟩
  · intro c _
    rw [hregistered.listed_get]
    exact and_iff_left rfl
  · intro c side ho
    have hin := hattended.loggedIn c side ho
    exact ⟨h.settled.running hin, hin, hattended.sessionId c side ho⟩
  · intro hround c side ho
    exact h.settled.logins.ne_zero_of_mem_issued hround (hissued c side ho)
  · intro id c hc
    obtain ⟨ho, hid⟩ := (hregistered.listed_get id c).mp hc
    exact ⟨lt_of_stopped_eq_false ho, ho, hid⟩
  · intro s side id c hc
    obtain ⟨ho, hid, hsession, -⟩ := (hregistered.entries_get s side id c).mp hc
    exact ⟨lt_of_stopped_eq_false ho, ho, hid, hsession⟩

/-- After every run that has not used up the channel ids, of which every channel that was
ever made has taken one, the channels that are not over are exactly those that are
listed and registered. -/
theorem exactlyRegistered_after (config : Config) (events : List Event)
    (hn : (Relay.after { config } events).channels.length < 2 ^ 32 - 1) :
    ExactlyRegistered (Relay.after { config } events) :=
  (sound_after config events).exactlyRegistered hn

/-- Two clients log in, and the second asks to be joined to the first. -/
def linked : List Event :=
  let client (port : UInt16) : SocketAddr := ⟨.v4 ⟨192, 0, 2, 1⟩, port, 0⟩
  [.connect .server (client 4000) ⟨.v4 .unspecified, 8800, 0⟩,
    .connect .client (client 4001) ⟨.v4 .unspecified, 8801, 0⟩,
    .bytes 0 (Request.encode (.login ⟨[65]⟩ ⟨10, 0, 0, 1⟩)),
    .bytes 1 (Request.encode (.login ⟨[66]⟩ ⟨10, 0, 0, 2⟩)),
    .bytes 1 (Request.encode (.proxy 1001 1000 "")) ]

theorem exactlyRegistered_linked :
    (Relay.after {} linked).channels.length = 1 ∧
      ((Relay.after {} linked).channel 0).stopped = false ∧
      ExactlyRegistered (Relay.after {} linked) := by
  have hlen : (Relay.after {} linked).channels.length = 1 := by decide +kernel
  have hopen : ((Relay.after {} linked).channel 0).stopped = false := by decide +kernel
  refine ⟨hlen, hopen, exactlyRegistered_after {} linked ?_⟩
  rw [hlen]
  decide

end PeerRelay.Relay
