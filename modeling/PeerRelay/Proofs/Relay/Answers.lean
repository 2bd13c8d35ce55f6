import PeerRelay.Proofs.Relay.Outboxes

/-!
# What a frame can have queued

For each kind of request it is told which responses serving it can queue, and for whom. A
channel is spoken of only when it was made for the request, and then under its new id.
-/

namespace PeerRelay.Relay

open Steps
open Wire (Frame Header Opcode ResultCode)

variable {r : Relay} {s src dst : SessionRef} {c : ChannelRef} {id : SessionId}
variable {Q : SessionRef → Push → Prop} {header : Header}

/-! ## Making a channel -/

theorem opened_channel (r : Relay) (src dst : SessionRef) :
    (r.opened src dst).channels.length = r.channels.length + 1 ∧
      ((r.opened src dst).channel r.channels.length).id = r.nextChannelId := by
  have hslot : (reserveSlot.exec r).channels = r.channels ∧
      (reserveSlot.exec r).nextChannelId = r.nextChannelId := by
    simp only [reserveSlot, exec, run_atomic]
    split <;> exact ⟨rfl, rfl⟩
  have hlength := length_openChannel (reserveSlot.exec r) src dst
  have hchannel := channel_openChannel (reserveSlot.exec r) src dst
  rw [hslot.1] at hlength hchannel
  refine ⟨hlength, ?_⟩
  rw [opened, hchannel]
  exact hslot.2

/-- A channel that cannot be put in its places is stopped at once; nobody is told of any other
channel. -/
theorem placeChannel_along (hc : c < r.channels.length)
    (hQ : ∀ t relay, Q t (stopPush (r.channel c).id relay)) :
    (placeChannel src c dst).Along (Pushes Q) r := by
  have hstop {r' : Relay} (hlasting : Lasting r r') : (stopChannel c).Along (Pushes Q) r' := by
    refine stopChannel_along fun side _ => ?_
    have hid : (r'.channel c).terms.id = (r.channel c).id :=
      congrArg Channel.Terms.id (hlasting.terms c hc)
    rw [hid]
    exact hQ _ _
  refine along_read ?_
  have hlisted := rel_exec_of_each (listChannel_lasting (r.channel c).id c) r
  refine along_bind (along_silent (listChannel_silent ..) r) ?_
  split
  · have hjoined := hlisted.trans (rel_exec_of_each (joinSessions_lasting c) _)
    refine along_bind (along_silent (joinSessions_silent c) _) ?_
    split
    · have hforgotten := hjoined.trans
        (rel_exec_of_each (forgetChannel_lasting (r.channel c).id) _)
      refine along_bind (along_silent (forgetChannel_silent _) _) ?_
      exact along_bind (hstop hforgotten) (along_pure _ _)
    · exact along_pure _ _
  · have hreleased := hlisted.trans (rel_exec_of_each releaseSlot_lasting _)
    refine along_bind (along_silent releaseSlot_silent _) ?_
    exact along_bind (hstop hreleased) (along_read (along_pure _ _))

theorem placeChannel_lasting (src : SessionRef) (c : ChannelRef) (dst : SessionRef) :
    (placeChannel src c dst).Each Lasting :=
  composed_each.placeChannel releaseSlot_lasting listChannel_lasting joinSessions_lasting
    forgetChannel_lasting stopChannel_lasting src c dst

/-- A request that is not refused makes the next channel, under the next id. -/
theorem createChannel_of_placed (h : (createChannel src id).run r =
      (placeChannel src r.channels.length dst).run (r.opened src dst)) :
    r.channels.length < ((createChannel src id).exec r).channels.length ∧
      (((createChannel src id).exec r).channel r.channels.length).id = r.nextChannelId := by
  obtain ⟨hlength, hid⟩ := opened_channel r src dst
  have hlt : r.channels.length < (r.opened src dst).channels.length :=
    hlength ▸ Nat.lt_succ_self _
  have hlast := rel_exec_of_each (placeChannel_lasting src r.channels.length dst)
    (r.opened src dst)
  rw [exec, h]
  exact ⟨Nat.lt_of_lt_of_le hlt hlast.length, (hlast.id_eq hlt).trans hid⟩

/-- A request that is refused queues nothing, and one that is not may have to tell that its
channel is over. -/
theorem createChannel_along
    (hQ : r.channels.length < ((createChannel src id).exec r).channels.length →
      ∀ t relay, Q t (stopPush r.nextChannelId relay)) :
    (createChannel src id).Along (Pushes Q) r := by
  rcases createChannel_refused_or_placed (R := Pushes Q) r src id
      (reserveSlot_silent.mono fun _ _ => Silent.pushes)
      (releaseSlot_silent.mono fun _ _ => Silent.pushes) with
    ⟨-, -, halong⟩ | ⟨dst, -, -, -, -, hrun, halong⟩
  · exact halong
  · obtain ⟨hlength, hid⟩ := opened_channel r src dst
    refine halong (along_silent (openChannel_silent src dst) _)
      (placeChannel_along (hlength ▸ Nat.lt_succ_self _) fun t relay => ?_)
    rw [hid]
    exact hQ (createChannel_of_placed hrun).1 t relay

theorem placeChannel_eq_ok {d : ChannelRef} {u : SessionRef}
    (h : ((placeChannel src c dst).run r).1 = .ok (d, u)) : d = c ∧ u = dst := by
  simp only [placeChannel, run_bind] at h
  split at h
  · simp only [run_bind] at h
    split at h
    · simp only [run_bind, run_pure] at h
      cases h
    · cases h
      exact ⟨rfl, rfl⟩
  · simp only [run_bind, run_pure] at h
    cases h

/-- The session that a client is joined to runs and is not the client's own, and the channel is
the next one. -/
theorem createChannel_eq_ok (h : ((createChannel src id).run r).1 = .ok (c, dst)) :
    (r.session dst).running = true ∧ dst ≠ src ∧
      r.channels.length < ((createChannel src id).exec r).channels.length ∧
      (((createChannel src id).exec r).channel c).id = r.nextChannelId := by
  rcases createChannel_refused_or_placed (R := Lasting) r src id reserveSlot_lasting
      releaseSlot_lasting with
    ⟨refusal, hrun, -⟩ | ⟨u, -, -, hdst, hne, hrun, -⟩
  · rw [hrun] at h
    cases h
  · obtain ⟨hmade, hid⟩ := createChannel_of_placed hrun
    rw [hrun] at h
    obtain ⟨rfl, rfl⟩ := placeChannel_eq_ok h
    exact ⟨hdst, hne, hmade, hid⟩

/-- A channel that is made for a request has the next id. -/
theorem createChannel_id (h : r.channels.length < ((createChannel src id).exec r).channels.length) :
    (((createChannel src id).exec r).channel r.channels.length).id = r.nextChannelId := by
  rcases createChannel_refused_or_placed (R := Lasting) r src id reserveSlot_lasting
      releaseSlot_lasting with
    ⟨refusal, hrun, -⟩ | ⟨u, -, -, -, -, hrun, -⟩
  · rw [exec, hrun] at h
    exact absurd h (Nat.lt_irrefl _)
  · exact (createChannel_of_placed hrun).2

/-! ## Serving requests -/

theorem servePiece_skip_silent (m1 m2 version : UInt8) :
    (servePiece s (.skip m1 m2 version)).Each Silent :=
  each_modify fun _ => .of_sessions rfl

theorem unread_silent (r : Relay) (s : SessionRef) (unread : Bytes) :
    Silent r (r.modifySession s fun session => { session with unread }) :=
  .modifySession r s (fun _ => rfl) fun _ => rfl

section Serve

variable (hrun : (r.session s).running = true)
include hrun

theorem refuseMalformed_along
    (hlogin : ∀ id, Opcode.ofCode? header.function = some .login →
      Q s ⟨header, .login .failed id⟩)
    (hproxy : Opcode.ofCode? header.function = some .proxy →
      Q s ⟨header, .proxyFailure .failed⟩) :
    (refuseMalformed s header).Along (Pushes Q) r := by
  unfold refuseMalformed
  split
  · exact along_read (push_along hrun (hlogin _ ‹_›))
  · exact push_along hrun (hproxy ‹_›)
  · exact along_pure _ _

theorem servePeers_along
    (hQ : Q s ⟨header, .peers
      (if (r.session s).role.mayOriginate then r.peerTable else PeerTable.empty)⟩) :
    (servePeers s header).Along (Pushes Q) r :=
  along_read (push_along hrun hQ)

theorem serveLogin_along {guid : Guid} {privateAddr : Ipv4}
    (hQ : ∀ result id, Q s ⟨header, .login result id⟩) :
    (serveLogin s header guid privateAddr).Along (Pushes Q) r := by
  have hmodify {f : Session → Session} (hf : ∀ x, (f x).running = x.running)
      (ho : ∀ x, (f x).outbox = x.outbox) :
      (Steps.modify fun r : Relay => r.modifySession s f).Each Silent :=
    each_modify fun r => .modifySession r s hf ho
  have hrecord (id : SessionId) : (recordIdentity s id guid privateAddr).Each Silent :=
    hmodify (fun _ => rfl) fun _ => rfl
  have hmark : (markLoggedIn s).Each Silent := hmodify (fun _ => rfl) fun _ => rfl
  have hdisarm : (Steps.modify (disarm (.login s))).Each Silent :=
    each_modify fun _ => .of_sessions rfl
  refine along_read ?_
  split
  · exact push_along hrun (hQ ..)
  · have hlogged := rel_exec_of_each (logIn_silent s guid) r
    refine along_bind (along_silent (logIn_silent s guid) r) ?_
    split
    · exact along_read (push_along (hlogged.still_running hrun) (hQ ..))
    · -- Whatever is noted of the session, it runs on until it is told of its login.
      rename_i id _
      have hrecorded := hlogged.trans (rel_exec_of_each (hrecord id) _)
      refine along_bind (along_silent (hrecord id) _) ?_
      have hmarked := hrecorded.trans (rel_exec_of_each hmark _)
      refine along_bind (along_silent hmark _) ?_
      have hdisarmed := hmarked.trans (rel_exec_of_each hdisarm _)
      refine along_bind (along_silent hdisarm _) ?_
      refine along_bind (push_along (hdisarmed.still_running hrun) (hQ ..)) ?_
      refine along_read ?_
      split
      · exact along_silent (dismiss_silent s) _
      · exact along_pure _ _

omit hrun in
/-- What becomes of the channels is settled when the request was dealt with. -/
theorem serveProxy_sameChannels {destination : SessionId}
    (hrole : (r.session s).role.mayOriginate = true) (hin : (r.session s).loggedIn = true) :
    SameChannels ((createChannel s destination).exec r)
      ((serveProxy s header destination).exec r) := by
  rw [Relay.serveProxy, exec_bind]
  simp only [run_read, hrole, hin, Bool.not_true, Bool.false_eq_true, if_false]
  rw [exec_bind]
  refine rel_exec_of_each ?_ ((createChannel s destination).exec r)
  split
  · exact push_sameChannels ..
  · refine each_bind (startChannel_sameChannels _) fun _ => ?_
    refine each_bind (each_read _) fun channel => each_bind (each_read _) fun session => ?_
    exact each_bind (push_sameChannels ..) fun _ => push_sameChannels ..

/-- Both sessions of a channel that was made for a request are told of it, and nothing is told
of any other channel. -/
theorem serveProxy_along {destination : SessionId}
    (hfail : ∀ result, Q s ⟨header, .proxyFailure result⟩)
    (hmade : r.channels.length < ((serveProxy s header destination).exec r).channels.length →
      (∀ t relay, Q t (stopPush r.nextChannelId relay)) ∧
        (∀ addr port, Q s ⟨header, .proxy .success r.nextChannelId addr port⟩) ∧
        ∀ t source addr port privateAddr,
          Q t ⟨header, .access source r.nextChannelId addr port privateAddr⟩) :
    (serveProxy s header destination).Along (Pushes Q) r := by
  by_cases hrole : (r.session s).role.mayOriginate = true
  · by_cases hin : (r.session s).loggedIn = true
    · rw [(serveProxy_sameChannels hrole hin).length] at hmade
      have hlogins := rel_exec_of_each (createChannel_sameLogins s destination) r
      refine along_read ?_
      rw [hrole, hin]
      refine along_bind (createChannel_along fun hlt => (hmade hlt).1) ?_
      cases hresult : ((createChannel s destination).run r).1 with
      | error refusal => exact push_along ((hlogins.running s).trans hrun) (hfail _)
      | ok made =>
          obtain ⟨c, dst⟩ := made
          obtain ⟨hdst, -, hlt, hid⟩ := createChannel_eq_ok hresult
          obtain ⟨-, hreply, haccess⟩ := hmade hlt
          generalize (createChannel s destination).exec r = r₁ at hlogins hid
          have hstarted := rel_exec_of_each (startChannel_sameLogins c) r₁
          have hsame := rel_exec_of_each (startChannel_sameChannels c) r₁
          refine along_bind (along_silent (startChannel_silent c) r₁) ?_
          refine along_read (along_read ?_)
          have hid' : (((startChannel c).exec r₁).channel c).id = r.nextChannelId :=
            (congrArg Channel.Terms.id (hsame.terms c)).trans hid
          have hrunning (t : SessionRef) (ht : (r.session t).running = true) :
              (((startChannel c).exec r₁).session t).running = true :=
            (hstarted.running t).trans ((hlogins.running t).trans ht)
          rw [hid']
          refine along_bind (push_along (hrunning dst hdst) (haccess ..)) ?_
          have hpushed := rel_exec_of_each (push_sameLogins dst header (.access
            (((startChannel c).exec r₁).session s).id r.nextChannelId
            (((startChannel c).exec r₁).channel c).dst.relay.ip.wireIpv4
            (((startChannel c).exec r₁).channel c).dst.relay.port
            (((startChannel c).exec r₁).session s).privateAddr)) ((startChannel c).exec r₁)
          exact push_along ((hpushed.running s).trans (hrunning s hrun)) (hreply ..)
    · refine along_read ?_
      rw [hrole, Bool.eq_false_iff.mpr hin]
      exact push_along hrun (hfail _)
  · refine along_read ?_
    rw [Bool.eq_false_iff.mpr hrole]
    exact push_along hrun (hfail _)

end Serve

end PeerRelay.Relay
