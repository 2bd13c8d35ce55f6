import PeerRelay.Proofs.Relay.ChannelCounts
import PeerRelay.Proofs.Relay.StreamCounts

/-!
# The metrics and what they are about

What begins is counted in one place and what ends in another. Whatever happens to a relay,
its metrics tell how many sessions, logins and channels have begun, how many of them have
ended, and how often bytes of a stream were passed over.
-/

namespace PeerRelay.Relay

open Steps
open Wire (Frame)

variable {r r' r'' : Relay}

/-! ## Logins -/

/-- The guids that are taken are counted by going through all sessions. -/
theorem Settled.size_guids (h : Settled r) :
    r.guids.size = r.tally fun s => (r.session s).loggedIn := by
  have hperm : r.guids.keys.Perm
      (((List.range r.sessions.length).filter fun s => (r.session s).loggedIn).map
        fun s => (r.session s).guid) := by
    have hnodup : r.guids.keys.Nodup := r.guids.nodup
    refine (List.perm_ext_iff_of_nodup hnodup ?_).mpr fun guid => ?_
    · refine List.Nodup.map_on (fun s hs t ht heq => ?_) (List.nodup_range.filter _)
      exact h.logins.guid_inj s t (List.mem_filter.mp hs).2 (List.mem_filter.mp ht).2 heq
    · rw [h.logins.guid_mem, List.mem_map]
      refine exists_congr fun s => and_congr_left fun _ => ?_
      rw [List.mem_filter, List.mem_range]
      exact ⟨fun hs => ⟨lt_of_loggedIn hs, hs⟩, And.right⟩
  rw [tally, List.countP_eq_length_filter, ← List.length_map (f := fun s => (r.session s).guid),
    ← hperm.length_eq, Registry.keys, List.length_map]
  rfl

/-- A request of a session changes nobody else's login, and if it logs the session in, that is
counted. -/
structure CountsLogin (s : SessionRef) (r r' : Relay) : Prop where
  length : r'.sessions.length = r.sessions.length
  running : ∀ t, (r'.session t).running = (r.session t).running
  other : ∀ t, t ≠ s → (r'.session t).loggedIn = (r.session t).loggedIn
  kept : (r.session s).loggedIn = true → (r'.session s).loggedIn = true
  counted : r'.metrics.logins = r.metrics.logins +
    if (r'.session s).loggedIn && !(r.session s).loggedIn then 1 else 0

namespace CountsLogin

variable {s : SessionRef}

theorem of_sameLogins (h : SameLogins r r') (hcount : r'.metrics.logins = r.metrics.logins) :
    CountsLogin s r r' where
  length := h.length
  running := h.running
  other t _ := h.loggedIn t
  kept hs := (h.loggedIn s).trans hs
  counted := by
    rw [h.loggedIn, hcount]
    cases (r.session s).loggedIn <;> simp

theorem trans (h : CountsLogin s r r') (h' : CountsLogin s r' r'') : CountsLogin s r r'' where
  length := h'.length.trans h.length
  running t := (h'.running t).trans (h.running t)
  other t ht := (h'.other t ht).trans (h.other t ht)
  kept hs := h'.kept (h.kept hs)
  counted := by
    have hkept := h.kept
    have hkept' := h'.kept
    rw [h'.counted, h.counted]
    -- Once the session is logged in it stays so, so it is counted at most once.
    cases h₁ : (r.session s).loggedIn <;> cases h₂ : (r'.session s).loggedIn <;>
      cases h₃ : (r''.session s).loggedIn <;> simp_all

end CountsLogin

/-- What is counted of a login is counted when guid and id are taken. -/
theorem metrics_serveLogin {s : SessionRef} (h : (r.session s).loggedIn = false)
    (header : Wire.Header) (guid : Guid) (privateAddr : Ipv4) :
    ((serveLogin s header guid privateAddr).exec r).metrics = ((logIn s guid).run r).2.metrics := by
  have hmodify {f : Session → Session} (hf : ∀ x, (f x).account = x.account) :
      (Steps.modify fun r : Relay => r.modifySession s f).Each Uncounted :=
    each_modify fun r => .modifySession r s hf
  simp only [serveLogin, exec_bind, run_read, h, Bool.false_eq_true, if_false]
  cases ((logIn s guid).run ((read fun r : Relay => r.session s).exec r)).1 with
  | error refusal =>
      exact (rel_exec_of_each (each_bind (each_read _) fun _ => push_uncounted ..) _).metrics
  | ok id =>
      refine (rel_exec_of_each (R := Uncounted) ?_ _).metrics
      refine each_bind (hmodify fun _ => rfl) fun _ => ?_
      refine each_bind (hmodify fun _ => rfl) fun _ => ?_
      refine each_bind (each_modify fun r => uncounted_disarm _ r) fun _ => ?_
      refine each_bind (push_uncounted ..) fun _ => each_bind (each_read _) fun running => ?_
      split
      · exact dismiss_uncounted s
      · exact each_pure ()

/-- A login request that lets the client in is counted, and no other. -/
theorem countsLogin_serveLogin {s : SessionRef} (hrun : (r.session s).running = true)
    (header : Wire.Header) (guid : Guid) (privateAddr : Ipv4) :
    CountsLogin s r ((serveLogin s header guid privateAddr).exec r) := by
  cases hin : (r.session s).loggedIn with
  | true =>
      rw [exec_serveLogin_of_loggedIn hin]
      exact .of_sameLogins (.modifySession r s fun _ => rfl) rfl
  | false =>
      have hmetrics := metrics_serveLogin hin header guid privateAddr
      by_cases hg : guid ∈ r.guids.keys
      · rw [exec_serveLogin_of_taken hin hg]
        exact .of_sameLogins ((sameLogins_count ..).trans (.modifySession _ s fun _ => rfl)) rfl
      · have hlength := SameSeats.length_sessions (rel_exec_of_each
          (counting_sameSeats.serveLogin (each_modify fun _ => ⟨rfl, rfl, rfl, rfl, rfl, rfl⟩)
            (each_modify fun _ => ⟨rfl, rfl, rfl, rfl, rfl, rfl⟩) s header guid privateAddr) r)
        obtain ⟨guids, hguids⟩ := Registry.insert?_of_not_mem hg ()
        by_cases hi : (r.session s).role.isDiscoverable = true ∧ r.nextSessionId ∈ r.index.keys
        · have hskipped : Skipped s header r ((serveLogin s header guid privateAddr).exec r) :=
            serveLogin_of_idTaken hin hrun hg hi.1 hi.2
          rw [run_logIn_of_idTaken hguids hi.1 hi.2] at hmetrics
          have hsame := hskipped.congr Session.loggedIn fun _ _ => rfl
          refine ⟨hlength, hskipped.congr Session.running fun _ _ => rfl, fun t _ => hsame t,
            fun hs => (hsame s).trans hs, ?_⟩
          rw [hmetrics, hsame, hin]
          exact (UInt64.add_zero _).symm
        · have hfree := fun hd hmem => hi ⟨hd, hmem⟩
          have hadmitted : Admitted s header guid privateAddr r
              ((serveLogin s header guid privateAddr).exec r) :=
            serveLogin_of_free hin hrun hg hfree
          obtain ⟨index, hlogin, -⟩ := run_logIn_of_free (s := s) hguids hfree
          rw [hlogin] at hmetrics
          have hself := (hadmitted.loggedIn_iff s).mpr (.inl rfl)
          refine ⟨hlength, fun t => ?_, fun t ht => by rw [hadmitted.other ht], fun _ => hself, ?_⟩
          · by_cases hts : t = s
            · rw [hts, hadmitted.self]
              rfl
            · rw [hadmitted.other hts]
          · rw [hmetrics, hself, hin]
            rfl

theorem countsLogin_servePiece {s : SessionRef} (hrun : (r.session s).running = true)
    (piece : Frame.Piece) : CountsLogin s r ((servePiece s piece).exec r) := by
  have hquiet {p : Op Unit} (hp : p.Each SameLogins) (hu : p.Each (Unheard Metrics.logins)) :
      CountsLogin s r (p.exec r) :=
    .of_sameLogins (rel_exec_of_each hp r) (rel_exec_of_each hu r).counted
  have huncounted {p : Op Unit} (hp : p.Each Uncounted) : p.Each (Unheard Metrics.logins) :=
    Unheard.counting.quiet hp
  cases piece with
  | skip m1 m2 version =>
      exact hquiet (each_modify fun r => sameLogins_count _ r) (Unheard.count fun _ => rfl)
  | frame frame =>
      unfold servePiece serveFrame
      dsimp only
      split
      · exact hquiet (each_pure ()) (each_pure ())
      · exact countsLogin_serveLogin hrun ..
      · exact hquiet (serveProxy_sameLogins ..) (Unheard.serveProxy ofStreams_logins ..)
      · exact hquiet (servePeers_sameLogins ..) (huncounted (servePeers_uncounted ..))
      · exact hquiet (refuseMalformed_sameLogins ..) (huncounted (refuseMalformed_uncounted ..))
      · exact hquiet (each_pure ()) (each_pure ())

theorem countsLogin_servePieces {s : SessionRef} (hrun : (r.session s).running = true)
    (pieces : List Frame.Piece) : CountsLogin s r ((servePieces s pieces).exec r) := by
  induction pieces generalizing r with
  | nil => exact .of_sameLogins (.refl r) rfl
  | cons piece pieces ih =>
      have hpiece := countsLogin_servePiece hrun piece
      have hstill := (hpiece.running s).trans hrun
      rw [exec_servePieces_cons piece pieces hstill]
      exact hpiece.trans (ih hstill)

theorem countsLogin_bytes {s : SessionRef} (hrun : (r.session s).running = true) (data : Bytes) :
    CountsLogin s r (r.step (.bytes s data)) := by
  have hsame := sameLogins_unread r s (Frame.drain ((r.session s).unread ++ data)).2
  rw [step_bytes hrun, midway]
  exact (CountsLogin.of_sameLogins hsame rfl).trans
    (countsLogin_servePieces ((hsame.running s).trans hrun) _)

/-- Nobody logs in, and whoever does not end stays logged in. -/
structure NobodyJoins (r r' : Relay) : Prop where
  length : r.sessions.length ≤ r'.sessions.length
  running : ∀ s < r.sessions.length, (r'.session s).running = true → (r.session s).running = true
  loggedIn : ∀ s, (r'.session s).loggedIn = true → (r.session s).loggedIn = true
  kept : ∀ s, (r'.session s).running = true → (r.session s).loggedIn = true →
    (r'.session s).loggedIn = true

namespace NobodyJoins

theorem refl (r : Relay) : NobodyJoins r r :=
  ⟨Nat.le_refl _, fun _ _ h => h, fun _ h => h, fun _ _ h => h⟩

theorem trans (h : NobodyJoins r r') (h' : NobodyJoins r' r'') : NobodyJoins r r'' where
  length := Nat.le_trans h.length h'.length
  running s hs hrun :=
    h.running s hs (h'.running s (Nat.lt_of_lt_of_le hs h.length) hrun)
  loggedIn s hs := h.loggedIn s (h'.loggedIn s hs)
  kept s hrun hs := by
    have hlt := Nat.lt_of_lt_of_le (lt_of_loggedIn hs) h.length
    exact h'.kept s hrun (h.kept s (h'.running s hlt hrun) hs)

theorem of_sameLogins (h : SameLogins r r') : NobodyJoins r r' where
  length := Nat.le_of_eq h.length.symm
  running s _ hs := (h.running s).symm.trans hs
  loggedIn s hs := (h.loggedIn s).symm.trans hs
  kept s _ hs := (h.loggedIn s).trans hs

theorem of_sessions_eq (h : r'.sessions = r.sessions) : NobodyJoins r r' := by
  have hsession (s : SessionRef) : r'.session s = r.session s := by rw [session, h, session]
  refine ⟨Nat.le_of_eq (congrArg List.length h).symm, ?_, ?_, ?_⟩ <;> intro s <;>
    rw [hsession]
  · exact fun _ hs => hs
  · exact id
  · exact fun _ hs => hs

end NobodyJoins

/-- A session that ends is logged out, and nobody else is. -/
theorem loggedIn_stopSession (h : Settled r) (s t : SessionRef) :
    (((stopSession s).exec r).session t).loggedIn = true ↔
      (r.session t).loggedIn = true ∧ t ≠ s := by
  by_cases hrun : (r.session s).running = true
  · have hdetach := sessions_detach ((dismiss s).exec ((stopChannels s).exec (r.marked s))) s
    have hstop := rel_exec_of_each (stopChannels_sameLogins s) (r.marked s)
    rw [stopSession_of_running hrun, session, hdetach, ← session, loggedIn_dismiss,
      hstop.loggedIn, marked_congr Session.loggedIn fun _ => rfl]
  · rw [stopSession_of_ended (Bool.eq_false_iff.mpr hrun)]
    constructor
    · intro ht
      refine ⟨ht, ?_⟩
      rintro rfl
      exact hrun (h.running ht)
    · exact And.left

theorem nobodyJoins_stopSession (h : Settled r) (s : SessionRef) :
    NobodyJoins r ((stopSession s).exec r) where
  length := Nat.le_of_eq (NoneBegun.stopSession s r).length.symm
  running t _ ht := ((running_stopSession r s t).mp ht).1
  loggedIn t ht := ((loggedIn_stopSession h s t).mp ht).1
  kept t hrun ht := (loggedIn_stopSession h s t).mpr ⟨ht, ((running_stopSession r s t).mp hrun).2⟩

/-- Logins only come over the sessions' connections. -/
theorem nobodyJoins_step (h : Settled r) {e : Event} (he : ∀ s data, e ≠ .bytes s data) :
    NobodyJoins r (r.step e) := by
  have hquiet {p : Op Unit} (hp : p.Each SameLogins) : NobodyJoins r (p.exec r) :=
    .of_sameLogins (rel_exec_of_each hp r)
  have hstart (role : Role) (peer localAddr : SocketAddr) (r : Relay) :
      NobodyJoins r ((startSession role peer localAddr false).exec r) := by
    have hin (s : SessionRef) :
        (((startSession role peer localAddr false).exec r).session s).loggedIn =
          (r.session s).loggedIn := startSession_congr Session.loggedIn rfl s
    refine ⟨(rel_exec_of_each (startSession_sameChannels ..) r).sessions, fun s hs hrun => ?_,
      fun s hs => (hin s).symm.trans hs, fun s _ hs => (hin s).trans hs⟩
    rwa [session_startSession, if_neg (Nat.ne_of_lt hs)] at hrun
  have hreserve : NobodyJoins r (reserveConnection.exec r) :=
    .of_sessions_eq (rel_exec_of_each reserveConnection_sameSessions r).sessions
  cases e with
  | connect role peer localAddr =>
      simp only [Relay.step, Event.op, accept, exec_bind]
      split
      · exact hreserve.trans (hstart role peer localAddr _)
      · exact hreserve
  | reserve => exact hreserve
  | begin role peer localAddr => exact hstart role peer localAddr r
  | abandon => exact .of_sessions_eq rfl
  | bytes s data => exact absurd rfl (he s data)
  | disconnect s => exact nobodyJoins_stopSession h s
  | datagram => exact hquiet (datagram_sameLogins ..)
  | due duty =>
      cases duty with
      | login s =>
          rw [step_due_login]
          split
          · exact .refl r
          · exact nobodyJoins_stopSession h s
      | poll c =>
          rw [step_due_poll]
          split
          · exact hquiet (stopChannel_sameLogins c)
          · exact .refl r
      | report c => exact hquiet (report_sameLogins c)
  | closeSession id =>
      rw [step_closeSession]
      split
      · exact .refl r
      · exact nobodyJoins_stopSession h _
  | closeChannel id =>
      rw [step_closeChannel]
      split
      · exact .refl r
      · exact hquiet (stopChannel_sameLogins _)
  | stopAll =>
      rw [step_stopAll]
      refine (forM_exec_induct (P := fun r' => Settled r' ∧ NobodyJoins r r')
        (fun s r' hr' => ?_) _ _ ⟨h, .refl r⟩).2
      exact ⟨hr'.1.stopSession s, hr'.2.trans (nobodyJoins_stopSession hr'.1 s)⟩
  | pass nanoseconds => exact .of_sessions_eq rfl
  | sync => exact .of_sessions_eq rfl

/-! ## Logins over whole runs -/

/-- Whether a session is logged in now or was at some time while events happened. -/
def everLoggedIn (s : SessionRef) (r : Relay) : List Event → Bool
  | [] => (r.session s).loggedIn
  | e :: events => (r.session s).loggedIn || everLoggedIn s (r.step e) events

theorem everLoggedIn_snoc (s : SessionRef) (r : Relay) (events : List Event) (e : Event) :
    everLoggedIn s r (events ++ [e]) =
      (everLoggedIn s r events || (((r.after events).step e).session s).loggedIn) := by
  induction events generalizing r with
  | nil => rfl
  | cons first events ih =>
      rw [List.cons_append, everLoggedIn, ih, everLoggedIn, Bool.or_assoc, after_cons]

/-- Every session that has ever logged in is counted, and it is still logged in as long as it
runs. -/
structure LoginsCounted (joined : SessionRef → Bool) (r : Relay) : Prop where
  loggedIn : ∀ s, (r.session s).loggedIn = true → joined s = true
  kept : ∀ s, joined s = true → (r.session s).running = true → (r.session s).loggedIn = true
  known : ∀ s, r.sessions.length ≤ s → joined s = false
  counted : r.metrics.logins = UInt64.ofNat (r.tally joined)

namespace LoginsCounted

variable {joined : SessionRef → Bool}

theorem nobodyJoins (h : LoginsCounted joined r) (hn : NobodyJoins r r')
    (hcount : r'.metrics.logins = r.metrics.logins) : LoginsCounted joined r' where
  loggedIn s hs := h.loggedIn s (hn.loggedIn s hs)
  kept s hjoined hrun := by
    have hlt : s < r.sessions.length := by
      refine Nat.lt_of_not_le fun hle => ?_
      rw [h.known s hle] at hjoined
      cases hjoined
    exact hn.kept s hrun (h.kept s hjoined (hn.running s hlt hrun))
  known s hle := h.known s (Nat.le_trans hn.length hle)
  counted := by rw [hcount, h.counted, tally_of_le hn.length h.known]

/-- A session that is let in has never been logged in before: whoever was and is not any more
has ended. -/
theorem joins {s : SessionRef} (h : LoginsCounted joined r) (hj : CountsLogin s r r')
    (hrun : (r.session s).running = true) :
    LoginsCounted (fun t => joined t || (r'.session t).loggedIn) r' := by
  have hother (t : SessionRef) (ht : t ≠ s) :
      (joined t || (r'.session t).loggedIn) = joined t := by
    rw [hj.other t ht]
    cases hin : (r.session t).loggedIn with
    | false => exact Bool.or_false _
    | true => rw [h.loggedIn t hin, Bool.true_or]
  have hkept (t : SessionRef) (ht : joined t = true) (hstill : (r'.session t).running = true) :
      (r'.session t).loggedIn = true := by
    have hbefore := h.kept t ht ((hj.running t).symm.trans hstill)
    by_cases hts : t = s
    · rw [hts] at hbefore ⊢
      exact hj.kept hbefore
    · rwa [hj.other t hts]
  have hknown (t : SessionRef) (hle : r'.sessions.length ≤ t) :
      (joined t || (r'.session t).loggedIn) = false := by
    rw [h.known t (hj.length ▸ hle), session_of_le hle]
    rfl
  refine ⟨fun t ht => by rw [ht, Bool.or_true], fun t ht hstill => ?_, hknown, ?_⟩
  · rcases Bool.or_eq_true_iff.mp ht with hjoined | hin
    · exact hkept t hjoined hstill
    · exact hin
  · rw [hj.counted, h.counted]
    by_cases hnew : ((r'.session s).loggedIn && !(r.session s).loggedIn) = true
    · obtain ⟨hin, hout⟩ := Bool.and_eq_true_iff.mp hnew
      have hfirst : joined s = false := by
        refine Bool.eq_false_iff.mpr fun hjoined => ?_
        rw [h.kept s hjoined hrun] at hout
        cases hout
      have htally :
          r'.tally (fun t => joined t || (r'.session t).loggedIn) = r.tally joined + 1 := by
        rw [← tally_or_eq (lt_of_running hrun) hfirst, tally, hj.length]
        refine tally_congr fun t _ => ?_
        by_cases hts : t = s
        · rw [hts, hin, beq_self_eq_true]
        · rw [hother t hts, beq_eq_false_iff_ne.mpr hts, Bool.or_false]
      rw [if_pos hnew, htally, UInt64.ofNat_add]
      rfl
    · have hsame : (joined s || (r'.session s).loggedIn) = joined s := by
        cases hin : (r'.session s).loggedIn with
        | false => exact Bool.or_false _
        | true =>
            have hbefore : (r.session s).loggedIn = true := by simpa [hin] using hnew
            rw [h.loggedIn s hbefore, Bool.true_or]
      have htally : r'.tally (fun t => joined t || (r'.session t).loggedIn) = r.tally joined := by
        rw [tally, hj.length]
        refine tally_congr fun t _ => ?_
        by_cases hts : t = s
        · rw [hts, hsame]
        · exact hother t hts
      rw [if_neg hnew, htally, UInt64.add_zero]

end LoginsCounted

/-- Over a whole run every session that logs in is counted once. -/
theorem loginsCounted_after (config : Config) (events : List Event) :
    LoginsCounted (fun s => everLoggedIn s { config } events) (Relay.after { config } events) := by
  induction events using List.reverseRecOn with
  | nil =>
      refine ⟨fun s hs => hs, fun s hs _ => hs, fun s _ => ?_, rfl⟩
      simp [everLoggedIn, session, Session.vacant]
  | append_singleton events e ih =>
      have hset := settled_after config events
      simp only [everLoggedIn_snoc, after_snoc]
      generalize Relay.after { config } events = r at ih hset ⊢
      have hquiet {r' : Relay} (hn : NobodyJoins r r')
          (hcount : r'.metrics.logins = r.metrics.logins) :
          LoginsCounted (fun s => everLoggedIn s { config } events || (r'.session s).loggedIn)
            r' := by
        have hsame (s : SessionRef) : (everLoggedIn s { config } events ||
            (r'.session s).loggedIn) = everLoggedIn s { config } events := by
          cases hin : (r'.session s).loggedIn with
          | false => exact Bool.or_false _
          | true => rw [ih.loggedIn s (hn.loggedIn s hin), Bool.true_or]
        simp only [hsame]
        exact ih.nobodyJoins hn hcount
      cases e with
      | bytes s data =>
          by_cases hrun : (r.session s).running = true
          · exact ih.joins (countsLogin_bytes hrun data) hrun
          · rw [step_bytes_of_ended (Bool.eq_false_iff.mpr hrun)]
            exact hquiet (.refl r) rfl
      | connect | reserve | begin | abandon | disconnect | datagram | due | closeSession
      | closeChannel | stopAll | pass | sync =>
          refine hquiet (nobodyJoins_step hset ?_) (Unheard.step ofStreams_logins r ?_).counted
          all_goals
            intro s data h
            cases h

/-! ## The metrics and the state -/

/-- How many sessions have ended. -/
def detached (r : Relay) : Nat := r.tally fun s => !r.live.contains s

theorem Attached.size_live_add_detached (h : Attached r) :
    r.live.size + r.detached = r.sessions.length := by
  have hdetached : r.detached = r.tally fun s => true && !(r.session s).running := by
    refine tally_congr fun s _ => ?_
    have hlive : r.live.contains s = (r.session s).running :=
      Bool.eq_iff_iff.mpr (Registry.contains_iff.trans (h.live s))
    rw [hlive, Bool.true_and]
  have hsplit := tally_and_not_add (r := r) (p := fun _ => true)
    (q := fun s => (r.session s).running) fun _ _ => rfl
  rw [hdetached, h.size_live, Nat.add_comm, hsplit, tally, List.countP_true, List.length_range]

/-- How many sessions have logged in while events happened and are not logged in any more. -/
def deregistered (r : Relay) (events : List Event) : Nat :=
  (r.after events).tally fun s =>
    everLoggedIn s r events && !((r.after events).session s).loggedIn

/-- The metrics after a run tell the same as the sessions and channels do. The counters have
64 bits; what they differ by is exact as long as they have not come round. -/
structure Reconciled (config : Config) (events : List Event) (r : Relay) : Prop where
  /-- The live sessions are those that have begun and not ended. -/
  live : ∀ s, s ∈ r.live.keys ↔ (r.session s).running = true
  activeSessions : r.metrics.activeSessions = r.live.size
  sessions : r.metrics.sessions = UInt64.ofNat (r.live.size + r.detached)
  detached : r.sessions.length < 2 ^ 64 →
    (r.metrics.sessions.toNat : Int) - r.metrics.activeSessions = r.detached
  activeChannels : r.metrics.activeChannels = r.channels.countP fun c => !c.stopped
  lifetimes : r.metrics.lifetimes.total = r.channels.countP fun c => c.stopped
  channels : r.metrics.channels =
    UInt64.ofNat ((r.channels.countP fun c => !c.stopped) + r.metrics.lifetimes.total)
  observed : r.channels.length < 2 ^ 64 →
    (r.metrics.channels.toNat : Int) - r.metrics.activeChannels = r.metrics.lifetimes.total
  logins : r.metrics.logins = UInt64.ofNat (r.guids.size + deregistered { config } events)
  registered : r.sessions.length < 2 ^ 64 →
    (r.metrics.logins.toNat : Int) - deregistered { config } events = r.guids.size
  /-- Two bytes were passed over so often in all that the sessions have taken in. -/
  resyncs : r.metrics.resyncs = UInt64.ofNat
    (∑ s ∈ Finset.range r.sessions.length, skips (stream s { config } events))

/-- After every run of complete events the metrics reconcile with the state. -/
theorem lifecycles_reconciled (config : Config) (events : List Event) :
    Reconciled config events (Relay.after { config } events) := by
  have hattached := attached_after config events
  have hchannels : ChannelsCounted (Relay.after { config } events) :=
    ChannelsCounted.after ⟨rfl, rfl, rfl⟩ events
  have hlogins := loginsCounted_after config events
  have hguids := (settled_after config events).size_guids
  have hderegistered : deregistered { config } events +
      (Relay.after { config } events).guids.size =
        (Relay.after { config } events).tally fun s => everLoggedIn s { config } events := by
    rw [hguids]
    exact tally_and_not_add hlogins.loggedIn
  have hdetached :
      (Relay.after { config } events).live.size + (Relay.after { config } events).detached =
        (Relay.after { config } events).sessions.length := by
    exact hattached.size_live_add_detached
  have hstopped : (Relay.after { config } events).channels.length =
      ((Relay.after { config } events).channels.countP fun c => !c.stopped) +
        (Relay.after { config } events).metrics.lifetimes.total := by
    have hsplit := countP_and_not_add (p := fun _ : Channel => true) (q := Channel.stopped)
      (fun _ _ => rfl) (Relay.after { config } events).channels
    rw [List.countP_true] at hsplit
    rw [hchannels.lifetimes]
    exact hsplit.symm
  constructor
  case live => exact hattached.live
  case activeSessions => exact hattached.active
  case sessions => rw [hattached.counted, hdetached]
  case detached =>
    intro hbound
    rw [hattached.counted, hattached.active, UInt64.toNat_ofNat', Nat.mod_eq_of_lt hbound]
    omega
  case activeChannels => exact hchannels.active
  case lifetimes => exact hchannels.lifetimes
  case channels => rw [hchannels.counted, hstopped]
  case observed =>
    intro hbound
    rw [hchannels.counted, hchannels.active, UInt64.toNat_ofNat', Nat.mod_eq_of_lt hbound]
    omega
  case logins => rw [hlogins.counted, ← hderegistered, Nat.add_comm]
  case registered =>
    intro hbound
    have hle : (Relay.after { config } events).tally (fun s => everLoggedIn s { config } events) ≤
        (Relay.after { config } events).sessions.length := tally_le _ _
    rw [hlogins.counted, ← hderegistered, UInt64.toNat_ofNat', Nat.mod_eq_of_lt (by omega)]
    omega
  case resyncs => exact (streamsCounted_after config events).counted

end PeerRelay.Relay
