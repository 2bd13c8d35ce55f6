import PeerRelay.Proofs.Relay.LoggingIn
import PeerRelay.Proofs.Wire.Grammar

/-!
# Logins over whole runs

Every event keeps the logins settled, so they are settled after every run. The
frames that arrive in one piece of data are handled one after another, and what
a login request leads to is told for each of them.
-/

namespace PeerRelay.Relay

open Steps
open Wire (Frame Opcode ResultCode)

variable {r : Relay} {s : SessionRef}

/-! ## Frames -/

/-- Whatever a frame asks for, the logins stay settled and the session keeps running. -/
theorem Settled.servePiece (h : Settled r) (hrun : (r.session s).running = true)
    (piece : Frame.Piece) :
    Settled ((servePiece s piece).exec r) ∧
      (((servePiece s piece).exec r).session s).running = true := by
  have hquiet {p : Op Unit} (hp : p.Each SameLogins) :
      Settled (p.exec r) ∧ ((p.exec r).session s).running = true := by
    have hsame := rel_exec_of_each hp r
    exact ⟨h.sameLogins hsame, (hsame.running s).trans hrun⟩
  cases piece with
  | skip m1 m2 version => exact hquiet (each_modify fun r => sameLogins_count _ r)
  | frame frame =>
      unfold Relay.servePiece serveFrame
      dsimp only
      split
      · exact hquiet (each_pure ())
      · exact h.serveLogin hrun
      · exact hquiet (serveProxy_sameLogins ..)
      · exact hquiet (servePeers_sameLogins ..)
      · exact hquiet (refuseMalformed_sameLogins ..)
      · exact hquiet (each_pure ())

theorem exec_servePieces_cons (piece : Frame.Piece) (rest : List Frame.Piece)
    (hrun : (((servePiece s piece).exec r).session s).running = true) :
    (servePieces s (piece :: rest)).exec r =
      (servePieces s rest).exec ((servePiece s piece).exec r) := by
  have hstill : (isRunning s).run ((servePiece s piece).run r).2 =
      (true, ((servePiece s piece).run r).2) := by
    simp only [isRunning, run_read]
    rw [← hrun]
    rfl
  simp only [exec, servePieces, run_bind, hstill, if_true]

theorem Settled.servePieces (h : Settled r) (hrun : (r.session s).running = true)
    (pieces : List Frame.Piece) :
    Settled ((servePieces s pieces).exec r) ∧
      (((servePieces s pieces).exec r).session s).running = true := by
  induction pieces generalizing r with
  | nil => exact ⟨h, hrun⟩
  | cons piece rest ih =>
      obtain ⟨hpiece, hstill⟩ := h.servePiece hrun piece
      rw [exec_servePieces_cons piece rest hstill]
      exact ih hpiece hstill

theorem exec_servePieces_snoc (h : Settled r) (hrun : (r.session s).running = true)
    (pieces : List Frame.Piece) (piece : Frame.Piece) :
    (servePieces s (pieces ++ [piece])).exec r =
      (servePiece s piece).exec ((servePieces s pieces).exec r) := by
  induction pieces generalizing r with
  | nil => exact exec_servePieces_cons piece [] (h.servePiece hrun piece).2
  | cons first rest ih =>
      obtain ⟨hfirst, hstill⟩ := h.servePiece hrun first
      rw [List.cons_append, exec_servePieces_cons first _ hstill,
        exec_servePieces_cons first _ hstill]
      exact ih hfirst hstill

/-- What arrived and the bytes kept from before, cut into pieces. -/
def pieces (r : Relay) (s : SessionRef) (data : Bytes) : List Frame.Piece :=
  (Frame.drain ((r.session s).unread ++ data)).1

/-- The relay when data arrived on a session's connection and the first so many pieces
were handled. -/
def midway (r : Relay) (s : SessionRef) (data : Bytes) (n : Nat) : Relay :=
  (servePieces s ((r.pieces s data).take n)).exec
    (r.modifySession s fun session =>
      { session with unread := (Frame.drain ((r.session s).unread ++ data)).2 })

theorem step_bytes (hrun : (r.session s).running = true) (data : Bytes) :
    r.step (.bytes s data) = r.midway s data (r.pieces s data).length := by
  simp only [step, Event.op, receive, exec, run_bind, run_read, hrun, if_true, run_modify,
    midway, pieces, List.take_length]

theorem sameLogins_unread (r : Relay) (s : SessionRef) (unread : Bytes) :
    SameLogins r (r.modifySession s fun session => { session with unread }) :=
  .modifySession r s fun _ => rfl

theorem Settled.midway (h : Settled r) (hrun : (r.session s).running = true) (data : Bytes)
    (n : Nat) :
    Settled (r.midway s data n) ∧ ((r.midway s data n).session s).running = true := by
  have hsame := sameLogins_unread r s (Frame.drain ((r.session s).unread ++ data)).2
  exact (h.sameLogins hsame).servePieces ((hsame.running s).trans hrun) _

theorem midway_succ (h : Settled r) (hrun : (r.session s).running = true) {data : Bytes}
    {n : Nat} {piece : Frame.Piece} (hn : (r.pieces s data)[n]? = some piece) :
    r.midway s data (n + 1) = (servePiece s piece).exec (r.midway s data n) := by
  have hsame := sameLogins_unread r s (Frame.drain ((r.session s).unread ++ data)).2
  rw [Relay.midway, List.take_add_one, hn]
  exact exec_servePieces_snoc (h.sameLogins hsame) ((hsame.running s).trans hrun) _ piece

/-! ## Events -/

theorem Settled.accept (h : Settled r) (role : Role) (peer localAddr : SocketAddr)
    (held : Bool) : Settled ((accept role peer localAddr held).exec r) := by
  have hreserved : Settled (reserveConnection.exec r) :=
    h.sameSessions (rel_exec_of_each reserveConnection_sameSessions r)
  simp only [Relay.accept, exec_bind]
  split
  · rw [exec_bind]
    exact hreserved.startSession role peer localAddr held
  · exact hreserved

/-- Every event keeps the logins settled. -/
theorem Settled.step (h : Settled r) (e : Event) : Settled (r.step e) := by
  have hquiet {p : Op Unit} (hp : p.Each SameLogins) : Settled (p.exec r) :=
    h.sameLogins (rel_exec_of_each hp r)
  cases e with
  | connect role peer localAddr =>
      simp only [Relay.step, Event.op, exec_bind]
      exact h.accept role peer localAddr false
  | reserve =>
      simp only [Relay.step, Event.op, exec_bind]
      exact h.sameSessions (rel_exec_of_each reserveConnection_sameSessions r)
  | begin role peer localAddr =>
      simp only [Relay.step, Event.op, exec_bind]
      exact h.startSession role peer localAddr false
  | abandon => exact h.sameSessions (rel_exec_of_each releaseConnection_sameSessions r)
  | bytes s data =>
      by_cases hrun : (r.session s).running = true
      · rw [step_bytes hrun]
        exact (h.midway hrun data _).1
      · rw [step_bytes_of_ended (Bool.eq_false_iff.mpr hrun)]
        exact h
  | disconnect s => exact h.stopSession s
  | datagram c side sender data => exact hquiet (datagram_sameLogins ..)
  | due duty =>
      cases duty with
      | login s =>
          rw [step_due_login]
          split
          · exact h
          · exact h.stopSession s
      | poll c =>
          rw [step_due_poll]
          split
          · exact hquiet (stopChannel_sameLogins c)
          · exact h
      | report c => exact hquiet (report_sameLogins c)
  | closeSession id =>
      rw [step_closeSession]
      split
      · exact h
      · exact h.stopSession _
  | closeChannel id =>
      rw [step_closeChannel]
      split
      · exact h
      · exact hquiet (stopChannel_sameLogins _)
  | stopAll =>
      rw [step_stopAll]
      exact forM_exec_induct (P := Settled) (fun s _ h => h.stopSession s) _ _ h
  | pass nanoseconds => exact h.sameSessions ⟨rfl, rfl, rfl, rfl, rfl⟩
  | sync => exact h.sameSessions ⟨rfl, rfl, rfl, rfl, rfl⟩

theorem Settled.after (h : Settled r) (events : List Event) : Settled (r.after events) := by
  induction events generalizing r with
  | nil => exact h
  | cons e rest ih => exact ih (h.step e)

/-- The logins are settled after every run. -/
theorem settled_after (config : Config) (events : List Event) :
    Settled (Relay.after { config } events) :=
  (settled_init config).after events

/-! ## What a login request leads to -/

/-- What the sessions and what is kept of their logins tell of each other. -/
structure LoginsExclusive (r : Relay) : Prop where
  /-- The guid set is the set of the guids of the sessions that are logged in. -/
  guids : ∀ guid, guid ∈ r.guids.keys ↔
    ∃ s, (r.session s).loggedIn = true ∧ (r.session s).guid = guid
  guid_unique : ∀ s t, (r.session s).loggedIn = true → (r.session t).loggedIn = true →
    (r.session s).guid = (r.session t).guid → s = t
  id_unique : ∀ s t, (r.session s).loggedIn = true → (r.session t).loggedIn = true →
    (r.session s).id = (r.session t).id → s = t
  /-- The index has the discoverable sessions that are logged in, under their ids. -/
  index : ∀ id s, r.index.get? id = some s ↔
    (r.session s).loggedIn = true ∧ (r.session s).role.isDiscoverable = true ∧
      (r.session s).id = id
  issued_from : ∀ id ∈ r.issued, 1000 ≤ id
  /-- Every id is greater than all that were handed out before it. -/
  issued_increasing : r.issued.Pairwise (· < ·)
  /-- A session that is or was logged in has an id that was handed out, -/
  id_issued : ∀ s, (r.session s).loggedIn = true ∨ (r.session s).id ≠ 0 →
    (r.session s).id ∈ r.issued
  /-- and no other session ever had it. -/
  id_once : ∀ s t, (r.session s).id ≠ 0 → (r.session s).id = (r.session t).id → s = t

theorem Settled.exclusive (h : Settled r) (hn : r.issued.length < 2 ^ 32 - 1000) :
    LoginsExclusive r := by
  have hle := Nat.le_of_lt hn
  refine ⟨h.logins.guid_mem, h.logins.guid_inj, ?_, h.logins.index_get,
    fun id => h.logins.le_of_mem_issued hle, h.logins.issued_pairwise hle, h.logins.id_mem,
    h.logins.id_inj hle⟩
  intro s t hs _ heq
  have hmem := h.logins.id_mem s (.inl hs)
  exact h.logins.id_inj hle s t (h.logins.ne_zero_of_mem_issued hle hmem) heq

/-- A frame that asks to log a client in. -/
def IsLogin (frame : Frame) : Prop := Opcode.ofCode? frame.header.function = some .login

/-- The client is not logged in, its request is whole, and nobody who is logged in has
the guid. -/
def Admissible (r : Relay) (s : SessionRef) (frame : Frame) (guid : Guid)
    (privateAddr : Ipv4) : Prop :=
  (r.session s).loggedIn = false ∧
    Request.decode frame = .ok (.login guid privateAddr) ∧
    ∀ t, (r.session t).loggedIn = true → (r.session t).guid ≠ guid

/-- What a login request leads to. -/
structure LoginServed (s : SessionRef) (frame : Frame) (r r' : Relay) : Prop where
  /-- An admissible client is let in under the next id, which is greater than all before. -/
  accepted : ∀ guid privateAddr, Admissible r s frame guid privateAddr →
    r'.session s = welcome frame.header r.nextSessionId guid privateAddr (r.session s) ∧
      (∀ t, t ≠ s → r'.session t = r.session t) ∧
      (∀ id ∈ r.issued, id < r.nextSessionId) ∧ r'.issued = r.issued ++ [r.nextSessionId]
  /-- Any other is told that it was refused, and no login, no id, no guid, no private
  address, nothing in the guid set, the index, the directory or the id counter changes. -/
  refused : (∀ guid privateAddr, ¬ Admissible r s frame guid privateAddr) →
    (∃ result, result ≠ .success ∧ (r'.session s).outbox = (r.session s).outbox ++
        [⟨frame.header, .login result (r.session s).id⟩]) ∧
      SameLogins r r'

theorem decode_of_isLogin {frame : Frame} (h : IsLogin frame) :
    (∃ guid privateAddr, Request.decode frame = .ok (.login guid privateAddr)) ∨
      ∃ field needed present, Request.decode frame = .error (.truncated field needed present) := by
  rcases Request.decode_of_asked h ⟨nofun, nofun⟩ with ⟨request, hop, hdecode⟩ | hcut
  · cases request with
    | login guid privateAddr => exact .inl ⟨guid, privateAddr, hdecode⟩
    | heartbeat | proxy | getPeers => cases hop
  · exact .inr hcut

theorem outbox_push (r : Relay) {header : Wire.Header} {response : Response}
    (hrun : (r.session s).running = true) :
    ((r.modifySession s (·.push header response)).session s).outbox =
      (r.session s).outbox ++ [⟨header, response⟩] := by
  rw [session_modifySession, if_pos ⟨rfl, lt_of_running hrun⟩]
  rfl

/-- What a login request leads to, wherever it comes in the stream. -/
theorem loginServed_of_settled (h : Settled r) (hrun : (r.session s).running = true)
    (hn : (r.session s).loggedIn = false → r.issued.length < 2 ^ 32 - 1000) {frame : Frame}
    (hf : IsLogin frame) : LoginServed s frame r ((servePiece s (.frame frame)).exec r) := by
  have hrefused {r₁ : Relay} {result : ResultCode} (hresult : result ≠ .success)
      (hsame : SameLogins r r₁) (houtbox : (r₁.session s).outbox = (r.session s).outbox)
      (hnot : ∀ guid privateAddr, ¬ Admissible r s frame guid privateAddr) :
      LoginServed s frame r (r₁.modifySession s
        (·.push frame.header (.login result (r.session s).id))) := by
    refine ⟨fun guid privateAddr hadm => absurd hadm (hnot guid privateAddr),
      fun _ => ⟨⟨result, hresult, ?_⟩, hsame.trans (.modifySession r₁ s fun _ => rfl)⟩⟩
    rw [outbox_push r₁ ((hsame.running s).trans hrun), houtbox]
  rcases decode_of_isLogin hf with ⟨guid, privateAddr, hdecode⟩ | ⟨field, needed, present, hdecode⟩
  · have hexec : servePiece s (.frame frame) = serveLogin s frame.header guid privateAddr := by
      simp only [Relay.servePiece, serveFrame, hdecode]
    rw [hexec]
    cases hin : (r.session s).loggedIn with
    | true =>
        rw [exec_serveLogin_of_loggedIn hin]
        refine hrefused (by decide) (.refl r) rfl fun _ _ hadm => ?_
        cases hin.symm.trans hadm.1
    | false =>
        by_cases hg : guid ∈ r.guids.keys
        · rw [exec_serveLogin_of_taken hin hg]
          refine hrefused (by decide) (sameLogins_count _ r) rfl fun g a hadm => ?_
          obtain ⟨t, ht, htg⟩ := (h.logins.guid_mem guid).mp hg
          cases hdecode.symm.trans hadm.2.1
          exact hadm.2.2 t ht htg
        · -- The next id is new, so nothing stands in the way of the login.
          have hid := h.logins.next_not_indexed (hn hin)
          have hadmitted :
              Admitted s frame.header guid privateAddr r
                ((serveLogin s frame.header guid privateAddr).exec r) :=
            serveLogin_of_free hin hrun hg fun _ => hid
          constructor
          · intro g a hadm
            cases hdecode.symm.trans hadm.2.1
            refine ⟨hadmitted.self, fun t ht => hadmitted.other ht, fun id hmem => ?_,
              hadmitted.issued⟩
            exact h.logins.lt_next (hn hin) hmem
          · intro hnot
            refine absurd ⟨hin, hdecode, fun t ht htg => hg ?_⟩ (hnot guid privateAddr)
            exact (h.logins.guid_mem guid).mpr ⟨t, ht, htg⟩
  · have hexec : (servePiece s (.frame frame)).exec r = r.modifySession s
        (·.push frame.header (.login .failed (r.session s).id)) := by
      have hcode : Opcode.ofCode? frame.header.function = some .login := hf
      simp only [Relay.servePiece, serveFrame, hdecode, refuseMalformed, hcode, exec, run_bind,
        run_read, push, run_modify]
    rw [hexec]
    refine hrefused (by decide) (.refl r) rfl fun g a hadm => ?_
    cases hdecode.symm.trans hadm.2.1

/-! ## The ids that one piece of data can use up -/

/-- A client that is not logged in after a frame was not logged in before it either,
and no id has gone. -/
theorem issued_servePiece (h : Settled r) (hrun : (r.session s).running = true)
    (hn : (r.session s).loggedIn = false → r.issued.length < 2 ^ 32 - 1000)
    (piece : Frame.Piece)
    (hout : (((servePiece s piece).exec r).session s).loggedIn = false) :
    (r.session s).loggedIn = false ∧ ((servePiece s piece).exec r).issued = r.issued := by
  have hquiet {p : Op Unit} (hp : p.Each SameLogins)
      (hout : ((p.exec r).session s).loggedIn = false) :
      (r.session s).loggedIn = false ∧ (p.exec r).issued = r.issued := by
    have hsame := rel_exec_of_each hp r
    exact ⟨(hsame.loggedIn s).symm.trans hout, hsame.issued⟩
  cases piece with
  | skip m1 m2 version => exact hquiet (each_modify fun r => sameLogins_count _ r) hout
  | frame frame =>
      revert hout
      unfold servePiece serveFrame
      dsimp only
      split
      · exact hquiet (each_pure ())
      · rename_i guid privateAddr _
        intro hout
        rcases serveLogin_cases hrun frame.header guid privateAddr with
          hsame | ⟨hskipped, htaken⟩ | ⟨-, hadmitted⟩
        · exact ⟨(hsame.loggedIn s).symm.trans hout, hsame.issued⟩
        · -- No id is passed over before the counter has come round.
          have hin := (hskipped.congr Session.loggedIn (fun _ _ => rfl) s).symm.trans hout
          exact absurd htaken (h.logins.next_not_indexed (hn hin))
        · rw [hadmitted.self] at hout
          cases hout
      · exact hquiet (serveProxy_sameLogins ..)
      · exact hquiet (servePeers_sameLogins ..)
      · exact hquiet (refuseMalformed_sameLogins ..)
      · exact hquiet (each_pure ())

theorem issued_servePieces (h : Settled r) (hrun : (r.session s).running = true)
    (hn : (r.session s).loggedIn = false → r.issued.length < 2 ^ 32 - 1000)
    (pieces : List Frame.Piece)
    (hout : (((servePieces s pieces).exec r).session s).loggedIn = false) :
    (r.session s).loggedIn = false ∧ ((servePieces s pieces).exec r).issued = r.issued := by
  induction pieces generalizing r with
  | nil => exact ⟨hout, rfl⟩
  | cons piece rest ih =>
      obtain ⟨hpiece, hstill⟩ := h.servePiece hrun piece
      have hone := issued_servePiece h hrun hn piece
      rw [exec_servePieces_cons piece rest hstill] at hout ⊢
      have hrest := ih hpiece hstill
        (fun hmid => by
          rw [(hone hmid).2]
          exact hn (hone hmid).1)
        hout
      exact ⟨(hone hrest.1).1, hrest.2.trans (hone hrest.1).2⟩

theorem issued_midway (h : Settled r) (hrun : (r.session s).running = true)
    (hn : r.issued.length < 2 ^ 32 - 1000) (data : Bytes) (n : Nat)
    (hout : ((r.midway s data n).session s).loggedIn = false) :
    (r.midway s data n).issued.length < 2 ^ 32 - 1000 := by
  have hsame := sameLogins_unread r s (Frame.drain ((r.session s).unread ++ data)).2
  have hissued := issued_servePieces (h.sameLogins hsame) ((hsame.running s).trans hrun)
    (fun _ => hsame.issued ▸ hn) _ hout
  rw [midway, hissued.2]
  exact hn

/-- Logins are exclusive after every run, and so every login request is served. A
request is found in the data that arrives next on a session's connection: `midway` is the
relay when the pieces before it were handled, and again when it was handled too. When all
pieces were handled, the arrival of the data is over. -/
theorem logins_exclusive (config : Config) (events : List Event)
    (hn : (Relay.after { config } events).issued.length < 2 ^ 32 - 1000) :
    LoginsExclusive (Relay.after { config } events) ∧
      ∀ s data, ((Relay.after { config } events).session s).running = true →
        (Relay.after { config } events).step (.bytes s data) =
            (Relay.after { config } events).midway s data
              ((Relay.after { config } events).pieces s data).length ∧
          ∀ n frame,
            ((Relay.after { config } events).pieces s data)[n]? = some (.frame frame) →
            IsLogin frame →
            LoginServed s frame ((Relay.after { config } events).midway s data n)
              ((Relay.after { config } events).midway s data (n + 1)) := by
  have h := settled_after config events
  generalize Relay.after { config } events = r at *
  refine ⟨h.exclusive hn, fun s data hrun => ⟨step_bytes hrun data, ?_⟩⟩
  intro n frame hpiece hlogin
  obtain ⟨hmid, hstill⟩ := h.midway hrun data n
  rw [midway_succ h hrun hpiece]
  exact loginServed_of_settled hmid hstill (issued_midway h hrun hn data n) hlogin

/-- Two clients log in under one guid, the second of them in vain. -/
def rivals : List Event :=
  let client (port : UInt16) : SocketAddr := ⟨.v4 ⟨192, 0, 2, 1⟩, port, 0⟩
  let login : Bytes := Request.encode (.login ⟨[65, 255]⟩ ⟨10, 0, 0, 1⟩)
  [.connect .either (client 4000) ⟨.v4 .unspecified, 8800, 0⟩,
    .connect .client (client 4001) ⟨.v4 .unspecified, 8801, 0⟩,
    .bytes 0 login, .bytes 1 login]

theorem logins_exclusive_rivals :
    (Relay.after {} rivals).issued = [1000] ∧ LoginsExclusive (Relay.after {} rivals) ∧
      ∃ frame, IsLogin frame ∧
        LoginServed 1 frame
          ((Relay.after {} rivals).midway 1 (Request.encode (.login ⟨[65]⟩ .unspecified)) 0)
          ((Relay.after {} rivals).midway 1 (Request.encode (.login ⟨[65]⟩ .unspecified)) 1) := by
  have hissued : (Relay.after {} rivals).issued = [1000] := by decide +kernel
  have hrun : ((Relay.after {} rivals).session 1).running = true := by decide +kernel
  have hpieces : ((Relay.after {} rivals).pieces 1
      (Request.encode (.login ⟨[65]⟩ .unspecified)))[0]? =
        some (.frame (Request.login ⟨[65]⟩ .unspecified).frame) := by decide +kernel
  have hn : (Relay.after {} rivals).issued.length < 2 ^ 32 - 1000 := by
    rw [hissued]
    decide
  obtain ⟨hexclusive, hserved⟩ := logins_exclusive {} rivals hn
  have hlogin : IsLogin (Request.login ⟨[65]⟩ .unspecified).frame := rfl
  exact ⟨hissued, hexclusive, _, hlogin, (hserved 1 _ hrun).2 0 _ hpieces hlogin⟩

end PeerRelay.Relay
