import PeerRelay.Proofs.Relay.Joining
import PeerRelay.Proofs.Relay.LoginRuns

/-!
# What is queued for clients

Most steps of a relay queue nothing. The others queue one response, behind everything that
was queued before, and the session that it is queued for is running at that moment. What
kind of response an operation can queue is told here for each operation in turn.
-/

namespace PeerRelay.Relay

open Steps

variable {r r' r'' : Relay} {s : SessionRef} {c : ChannelRef}

/-! ## Steps that queue nothing -/

/-- Nothing is queued for anybody, and every session runs on if it ran. -/
structure Silent (r r' : Relay) : Prop where
  length : r.sessions.length ≤ r'.sessions.length
  running : ∀ s < r.sessions.length, (r'.session s).running = (r.session s).running
  outbox : ∀ s, (r'.session s).outbox = (r.session s).outbox

namespace Silent

theorem of_sessions (h : r'.sessions = r.sessions) : Silent r r' := by
  have hsame (s : SessionRef) : r'.session s = r.session s := by rw [session, h, session]
  exact ⟨Nat.le_of_eq (by rw [h]), fun s _ => by rw [hsame], fun s => by rw [hsame]⟩

theorem refl (r : Relay) : Silent r r := of_sessions rfl

theorem trans (h : Silent r r') (h' : Silent r' r'') : Silent r r'' where
  length := Nat.le_trans h.length h'.length
  running s hs := (h'.running s (Nat.lt_of_lt_of_le hs h.length)).trans (h.running s hs)
  outbox s := (h'.outbox s).trans (h.outbox s)

instance : Std.Refl Silent := ⟨refl⟩

instance : Trans Silent Silent Silent := ⟨trans⟩

theorem modifySession (r : Relay) (s : SessionRef) {f : Session → Session}
    (hrunning : ∀ x, (f x).running = x.running) (houtbox : ∀ x, (f x).outbox = x.outbox) :
    Silent r (r.modifySession s f) :=
  ⟨Nat.le_of_eq (List.length_modify ..).symm,
    fun t _ => session_modifySession_congr Session.running hrunning t,
    session_modifySession_congr Session.outbox houtbox⟩

theorem still_running (h : Silent r r') (hrun : (r.session s).running = true) :
    (r'.session s).running = true :=
  (h.running s (lt_of_running hrun)).trans hrun

end Silent

theorem withChannels_silent (s : SessionRef) (side : Side)
    (entries : Registry ChannelId ChannelRef) (r : Relay) :
    Silent r (r.modifySession s (·.withChannels side entries)) :=
  .modifySession r s (fun _ => by cases side <;> rfl) fun _ => by cases side <;> rfl

theorem reserveSlot_silent : reserveSlot.Each Silent := by
  refine each_atomic fun r => ?_
  split <;> exact .of_sessions rfl

theorem releaseSlot_silent : releaseSlot.Each Silent := each_modify fun _ => .of_sessions rfl

theorem openChannel_silent (src dst : SessionRef) : (openChannel src dst).Each Silent :=
  each_atomic fun _ => .of_sessions rfl

theorem listChannel_silent (id : ChannelId) (c : ChannelRef) :
    (listChannel id c).Each Silent := by
  refine each_atomic fun r => ?_
  split <;> exact .of_sessions rfl

theorem forgetChannel_silent (id : ChannelId) : (forgetChannel id).Each Silent :=
  composed_each.forgetChannel releaseSlot_silent (each_atomic fun _ => .of_sessions rfl)

theorem leave_silent (s : SessionRef) (side : Side) (id : ChannelId) :
    (leave s side id).Each Silent :=
  each_atomic fun _ => withChannels_silent ..

theorem register_silent (s : SessionRef) (side : Side) (id : ChannelId) (c : ChannelRef) :
    (register s side id c).Each Silent := by
  have henter : (enter s side id c).Each Silent := by
    refine each_atomic fun r => ?_
    split
    · exact withChannels_silent ..
    · exact .refl r
  exact composed_each.register henter (leave_silent ..)

theorem joinSessions_silent (c : ChannelRef) : (joinSessions c).Each Silent :=
  composed_each.joinSessions register_silent leave_silent c

theorem claimStop_silent (c : ChannelRef) : (claimStop c).Each Silent :=
  each_atomic fun _ => .of_sessions rfl

theorem retireChannel_silent (c : ChannelRef) : (retireChannel c).Each Silent :=
  each_modify fun _ => .of_sessions rfl

theorem countClosed_silent (c : ChannelRef) : (countClosed c).Each Silent :=
  each_modify fun _ => .of_sessions rfl

theorem sessions_armEvery (period : Option Nat) (duty : Duty) (r : Relay) :
    (r.armEvery period duty).sessions = r.sessions := by
  unfold armEvery
  split <;> rfl

theorem startChannel_silent (c : ChannelRef) : (startChannel c).Each Silent := by
  refine each_modify fun r => ?_
  dsimp only
  split
  · exact .refl r
  · refine .of_sessions ?_
    rw [sessions_armEvery, sessions_armEvery]
    rfl

theorem datagram_silent (c : ChannelRef) (side : Side) (sender : SocketAddr) (data : Bytes) :
    (datagram c side sender data).Each Silent :=
  each_modify fun _ => .of_sessions rfl

theorem report_silent (c : ChannelRef) : (report c).Each Silent := by
  refine each_modify fun r => ?_
  dsimp only
  split <;> exact .of_sessions rfl

theorem takeChannels_silent (s : SessionRef) (side : Side) :
    (takeChannels s side).Each Silent :=
  each_takeChannels fun entries r => withChannels_silent s side entries r

theorem reserveConnection_silent : reserveConnection.Each Silent :=
  reserveConnection_sameSessions.mono fun _ _ h => .of_sessions h.sessions

theorem releaseConnection_silent : releaseConnection.Each Silent :=
  releaseConnection_sameSessions.mono fun _ _ h => .of_sessions h.sessions

theorem detach_silent (s : SessionRef) : (detach s).Each Silent :=
  (detach_sameSessions s).mono fun _ _ h => .of_sessions h.sessions

/-- A new session has nothing queued, and it is none of those that are over. -/
theorem startSession_silent (role : Role) (peer localAddr : SocketAddr) (held : Bool) :
    (startSession role peer localAddr held).Each Silent := by
  refine each_atomic fun r => ?_
  have hsession := session_startSession role peer localAddr held r
  refine ⟨Nat.le.intro (List.length_append ..).symm, fun s hs => ?_,
    startSession_congr Session.outbox rfl⟩
  change (((startSession role peer localAddr held).exec r).session s).running = _
  rw [hsession, if_neg (Nat.ne_of_lt hs)]

theorem accept_silent (role : Role) (peer localAddr : SocketAddr) (held : Bool) :
    (accept role peer localAddr held).Each Silent :=
  composed_each.accept reserveConnection_silent startSession_silent role peer localAddr held

/-- No session is touched. -/
def KeepsSessions (r r' : Relay) : Prop := r'.sessions = r.sessions

instance : Std.Refl KeepsSessions := ⟨fun _ => rfl⟩

/-- A guid and an id are taken for a session before anything is noted of it. -/
theorem logIn_keepsSessions (s : SessionRef) (guid : Guid) :
    (logIn s guid).Each KeepsSessions := by
  have hreserve (guid : Guid) : (reserveGuid guid).Each KeepsSessions := by
    refine each_atomic fun r => ?_
    split <;> rfl
  have htake : takeSessionId.Each KeepsSessions := each_atomic fun _ => rfl
  have hindex (id : SessionId) : (indexSession id s).Each KeepsSessions := by
    refine each_atomic fun r => ?_
    split <;> rfl
  exact composed_each.logIn hreserve htake hindex (fun _ => each_modify fun _ => rfl)
    (fun _ => each_modify fun _ => rfl) (each_modify fun _ => rfl) (each_modify fun _ => rfl) guid

theorem logIn_silent (s : SessionRef) (guid : Guid) : (logIn s guid).Each Silent :=
  (logIn_keepsSessions s guid).mono fun _ _ h => .of_sessions h

theorem dismiss_silent (s : SessionRef) : (dismiss s).Each Silent :=
  composed_each.dismiss (each_atomic fun r => .modifySession r s (fun _ => rfl) fun _ => rfl)
    (fun _ => each_modify fun _ => .of_sessions rfl)
    (fun _ => each_modify fun _ => .of_sessions rfl) fun _ => each_modify fun _ => .of_sessions rfl

/-! ## Steps that queue something -/

/-- What is queued comes behind the rest, and no session that is over comes back. -/
structure Appends (r r' : Relay) : Prop where
  length : r.sessions.length ≤ r'.sessions.length
  running : ∀ s < r.sessions.length,
    (r'.session s).running = true → (r.session s).running = true
  outbox : ∀ s, (r.session s).outbox <+: (r'.session s).outbox

theorem Silent.appends (h : Silent r r') : Appends r r' :=
  ⟨h.length, fun s hs hrun => (h.running s hs).symm.trans hrun,
    fun s => ⟨[], by rw [h.outbox, List.append_nil]⟩⟩

instance : Std.Refl Appends := ⟨fun r => (Silent.refl r).appends⟩

theorem Appends.modifySession (r : Relay) (s : SessionRef) {f : Session → Session}
    (hrunning : ∀ x, (f x).running = true → x.running = true)
    (houtbox : ∀ x, x.outbox <+: (f x).outbox) : Appends r (r.modifySession s f) := by
  refine ⟨Nat.le_of_eq (List.length_modify ..).symm, fun t _ ht => ?_, fun t => ?_⟩
  · rw [session_modifySession] at ht
    split at ht
    · exact hrunning _ ht
    · exact ht
  · rw [session_modifySession]
    split
    · exact houtbox _
    · exact List.prefix_rfl

/-- A session that has ended stays as it is. -/
theorem Appends.ended (h : Appends r r') (hs : s < r.sessions.length)
    (hover : (r.session s).running = false) :
    s < r'.sessions.length ∧ (r'.session s).running = false := by
  refine ⟨Nat.lt_of_lt_of_le hs h.length, Bool.eq_false_iff.mpr fun hrun => ?_⟩
  cases hover.symm.trans (h.running s hs hrun)

/-- What is queued comes behind the rest, is of a certain kind, and is for sessions that run;
no session that is over comes back. -/
structure Pushes (Q : SessionRef → Push → Prop) (r r' : Relay) : Prop where
  length : r.sessions.length ≤ r'.sessions.length
  running : ∀ s < r.sessions.length,
    (r'.session s).running = true → (r.session s).running = true
  outbox : ∀ s, ∃ new, (r'.session s).outbox = (r.session s).outbox ++ new ∧
    ∀ p ∈ new, (r.session s).running = true ∧ Q s p

variable {Q Q' : SessionRef → Push → Prop}

theorem Silent.pushes (h : Silent r r') : Pushes Q r r' :=
  ⟨h.length, fun s hs hrun => (h.running s hs).symm.trans hrun,
    fun s => ⟨[], by rw [h.outbox, List.append_nil], nofun⟩⟩

theorem Pushes.appends (h : Pushes Q r r') : Appends r r' := by
  refine ⟨h.length, h.running, fun s => ?_⟩
  obtain ⟨new, hnew, -⟩ := h.outbox s
  exact ⟨new, hnew.symm⟩

instance : Std.Refl (Pushes Q) := ⟨fun r => (Silent.refl r).pushes⟩

theorem Pushes.mono (h : Pushes Q r r') (hQ : ∀ s p, Q s p → Q' s p) : Pushes Q' r r' := by
  refine ⟨h.length, h.running, fun s => ?_⟩
  obtain ⟨new, hnew, hkind⟩ := h.outbox s
  exact ⟨new, hnew, fun p hp => ⟨(hkind p hp).1, hQ s p (hkind p hp).2⟩⟩

theorem along_silent {α : Type} {p : Op α} (h : p.Each Silent) (r : Relay) :
    p.Along (Pushes Q) r :=
  (h.along r).mono fun _ _ => Silent.pushes

theorem push_along {header : Wire.Header} {response : Response}
    (hrun : (r.session s).running = true) (hQ : Q s ⟨header, response⟩) :
    (push s header response).Along (Pushes Q) r := by
  have hlogins : SameLogins r (r.modifySession s (·.push header response)) :=
    .modifySession r s fun _ => rfl
  refine along_modify ⟨Nat.le_of_eq hlogins.length.symm, fun t _ ht => ?_, fun t => ?_⟩
  · rwa [hlogins.running] at ht
  · rw [session_modifySession]
    split
    · rename_i hst
      obtain ⟨rfl, -⟩ := hst
      refine ⟨[⟨header, response⟩], rfl, fun p hp => ?_⟩
      cases List.mem_singleton.mp hp
      exact ⟨hrun, hQ⟩
    · exact ⟨[], (List.append_nil _).symm, nofun⟩

/-! ## Notices that a channel is over -/

/-- What a client is sent when a channel is over. -/
def stopPush (id : ChannelId) (relay : SocketAddr) : Push :=
  ⟨.fresh .stopProxy, stopNotice id relay⟩

theorem notifyStop_along {id : ChannelId} {relay : SocketAddr}
    (hQ : (r.session s).running = true → Q s (stopPush id relay)) :
    (notifyStop s id relay).Along (Pushes Q) r := by
  refine along_read ?_
  split
  · rename_i hrun
    exact push_along hrun (hQ hrun)
  · exact along_pure _ _

theorem closeEnd_along {id : ChannelId} {side : Side} {e : Channel.Endpoint}
    (hQ : (r.session e.session).running = true → Q e.session (stopPush id e.relay)) :
    (closeEnd id side e).Along (Pushes Q) r := by
  have hleft := rel_exec_of_each (leave_sameLogins e.session side id) r
  refine along_bind (along_silent (leave_silent ..) r) ?_
  generalize (leave e.session side id).exec r = r₁ at hleft
  have hQ₁ (hrun : (r₁.session e.session).running = true) : Q e.session (stopPush id e.relay) :=
    hQ ((hleft.running _).symm.trans hrun)
  split
  · split
    · have hforgotten := rel_exec_of_each (forgetChannel_sameLogins id) r₁
      refine along_bind (along_silent (forgetChannel_silent id) r₁) ?_
      exact notifyStop_along fun hrun => hQ₁ ((hforgotten.running _).symm.trans hrun)
    · exact notifyStop_along hQ₁
  · exact along_pure _ _

/-- When a channel stops, its two sessions are told as far as they run, and nobody else is. -/
theorem stopChannel_along
    (hQ : ∀ side, (r.session ((r.channel c).terms.session side)).running = true →
      Q ((r.channel c).terms.session side)
        (stopPush (r.channel c).terms.id ((r.channel c).terms.relay side))) :
    (stopChannel c).Along (Pushes Q) r := by
  refine along_bind (along_silent (claimStop_silent c) r) ?_
  have hexec : (claimStop c).exec r = r.halted c := rfl
  rw [hexec]
  split
  · refine along_read ?_
    have hterms := terms_halted r c c
    rw [← hterms] at hQ
    have hsrc : ((r.halted c).session ((r.halted c).channel c).src.session).running = true →
        Q _ _ := hQ .src
    have hdst : ((r.halted c).session ((r.halted c).channel c).dst.session).running = true →
        Q _ _ := hQ .dst
    generalize hr₁ : r.halted c = r₁ at *
    have hclosed := rel_exec_of_each
      (closeEnd_sameLogins (r₁.channel c).id .src (r₁.channel c).src) r₁
    refine along_bind (closeEnd_along hsrc) ?_
    refine along_bind (closeEnd_along fun hrun => hdst ?_) ?_
    · rwa [hclosed.running] at hrun
    · refine along_bind (along_silent (retireChannel_silent c) _) ?_
      exact along_silent (countClosed_silent c) _
  · exact along_pure _ _

/-! ## The end of a session -/

theorem claimEnd_along (r : Relay) (s : SessionRef) : (claimEnd s).Along (Pushes Q) r := by
  refine .step ⟨Nat.le_of_eq (List.length_modify ..).symm, fun t _ ht => ?_,
    fun t => ⟨[], ?_, nofun⟩⟩ (.done _ _)
  · change ((r.modifySession s _).session t).running = true at ht
    rw [session_modifySession] at ht
    split at ht
    · cases ht
    · exact ht
  · rw [List.append_nil]
    exact session_modifySession_congr (f := fun x => { x with running := false })
      Session.outbox (fun _ => rfl) t

section Ending

variable (hstop : ∀ t id relay, Q t (stopPush id relay))
include hstop

theorem discardChannel_along (r : Relay) (c : ChannelRef) :
    (discardChannel c).Along (Pushes Q) r := by
  refine along_read (along_bind (along_silent (forgetChannel_silent _) r) ?_)
  exact stopChannel_along fun _ _ => hstop ..

theorem stopSession_along (r : Relay) (s : SessionRef) :
    (stopSession s).Along (Pushes Q) r := by
  have hdisarm : (Steps.modify (disarm (.login s))).Each Silent :=
    each_modify fun _ => .of_sessions rfl
  have hloop {f : ChannelRef → Op Unit} (hf : ∀ c r, (f c).Along (Pushes Q) r)
      (cs : List ChannelRef) (r : Relay) : (cs.forM f).Along (Pushes Q) r :=
    along_forM (P := fun _ => True) cs (fun c _ r _ => ⟨hf c r, trivial⟩) r trivial
  refine along_bind (claimEnd_along r s) ?_
  split
  · refine along_bind (along_silent hdisarm _) ?_
    refine along_bind (along_silent (takeChannels_silent s .src) _) ?_
    refine along_bind (hloop (fun c r => discardChannel_along hstop r c) _ _) ?_
    refine along_bind (along_silent (takeChannels_silent s .dst) _) ?_
    refine along_bind (hloop (fun c r => stopChannel_along fun _ _ => hstop ..) _ _) ?_
    refine along_bind (along_silent (dismiss_silent s) _) ?_
    exact along_silent (detach_silent s) _
  · exact along_pure _ _

end Ending

end PeerRelay.Relay
