import PeerRelay.Proofs.Relay.Calls
import PeerRelay.Proofs.Relay.Counting
import PeerRelay.Proofs.Relay.Streams

/-!
# Replies and what calls for them

Some of what is queued for a client answers a request of its own, the rest is pushed to it
unasked. Which frames are answered can be told from the frames alone. Here it is shown for each
operation which replies it queues for a session, in which order, whatever other operations do
between its steps.
-/

namespace PeerRelay

open Steps
open Wire (Frame Header Opcode)

/-- Whether a response answers a request. The others are pushed unasked. -/
def Response.isReply : Response → Bool
  | .login .. | .proxy .. | .peers .. => true
  | .access .. | .stopProxy .. => false

/-- The header that a push was written under, and its function. -/
def Push.heading (p : Push) : Header × Opcode := (p.header, p.response.opcode)

/-- The headings of the replies that were queued for a client, oldest first. -/
def Session.replies (s : Session) : List (Header × Opcode) :=
  (s.outbox.filter (·.response.isReply)).map Push.heading

@[simp] theorem Session.replies_withChannels (s : Session) (side : Side)
    (entries : Registry ChannelId ChannelRef) :
    (s.withChannels side entries).replies = s.replies := by
  cases side <;> rfl

theorem Session.replies_push (s : Session) (header : Header) (response : Response) :
    (s.push header response).replies =
      s.replies ++ if response.isReply then [(header, response.opcode)] else [] := by
  simp only [replies, push, List.filter_append, List.map_append]
  congr 1
  cases hreply : response.isReply <;> simp [hreply, Push.heading]

/-- The reply that a frame calls for: requests to log in and for a channel are answered even if
they are cut short, one for the peer table only if it is whole. -/
def Wire.Frame.due (frame : Frame) : List (Header × Opcode) :=
  match Opcode.ofCode? frame.header.function with
  | some .login => [(frame.header, .login)]
  | some .proxy => [(frame.header, .proxy)]
  | some .getPeers => if (Request.decode frame).isOk then [(frame.header, .getPeers)] else []
  | _ => []

/-- Bytes that were passed over are not answered. -/
def Wire.Frame.Piece.due : Frame.Piece → List (Header × Opcode)
  | .frame f => f.due
  | .skip .. => []

/-- The replies that a stream calls for when it is cut into frames as a whole. -/
def Wire.Frame.repliesDue (stream : Bytes) : List (Header × Opcode) :=
  (Frame.drain stream).1.flatMap Frame.Piece.due

/-- A reply has the function of the frame that it answers. -/
theorem Wire.Frame.function_of_mem_due {frame : Frame} {reply : Header × Opcode}
    (h : reply ∈ frame.due) :
    reply.1 = frame.header ∧ Opcode.ofCode? frame.header.function = some reply.2 := by
  unfold due at h
  split at h
  · rename_i hcode
    obtain rfl := List.mem_singleton.mp h
    exact ⟨rfl, hcode⟩
  · rename_i hcode
    obtain rfl := List.mem_singleton.mp h
    exact ⟨rfl, hcode⟩
  · rename_i hcode
    split at h
    · obtain rfl := List.mem_singleton.mp h
      exact ⟨rfl, hcode⟩
    · exact absurd h List.not_mem_nil
  · exact absurd h List.not_mem_nil

theorem Request.opcode_of_decode {frame : Frame} {request : Request}
    (h : Request.decode frame = .ok request) :
    Opcode.ofCode? frame.header.function = some request.opcode := by
  rw [Request.function_of_decode h, Opcode.ofCode?_code]

/-- What is neither a request to log in nor one for a channel is not answered unless it is whole. -/
theorem Wire.Frame.due_eq_nil {frame : Frame}
    (hlogin : Opcode.ofCode? frame.header.function ≠ some .login)
    (hproxy : Opcode.ofCode? frame.header.function ≠ some .proxy)
    (hcut : (Request.decode frame).isOk = false) : frame.due = [] := by
  unfold due
  split
  · exact absurd ‹_› hlogin
  · exact absurd ‹_› hproxy
  · rw [hcut, if_neg Bool.false_ne_true]
  · rfl

namespace Relay

variable {r r' r'' : Relay} {s t dst : SessionRef} {header : Header}

/-! ## Steps that answer nothing -/

/-- The session is not answered, its stream is left alone, and it does not come back once it is
over. -/
structure Unanswered (s : SessionRef) (r r' : Relay) : Prop where
  length : r.sessions.length ≤ r'.sessions.length
  running : s < r.sessions.length → (r'.session s).running = true →
    (r.session s).running = true
  unread : (r'.session s).unread = (r.session s).unread
  replies : (r'.session s).replies = (r.session s).replies

namespace Unanswered

theorem of_session (hlength : r.sessions.length ≤ r'.sessions.length)
    (h : r'.session s = r.session s) : Unanswered s r r' := by
  refine ⟨hlength, fun _ hrun => ?_, ?_, ?_⟩
  · rwa [h] at hrun
  · rw [h]
  · rw [h]

theorem of_sessions (h : r'.sessions = r.sessions) : Unanswered s r r' :=
  of_session (Nat.le_of_eq (by rw [h])) (by rw [session, h, session])

theorem refl (r : Relay) : Unanswered s r r := of_sessions rfl

instance : Std.Refl (Unanswered s) := ⟨refl⟩

theorem modifySession (r : Relay) (t : SessionRef) {f : Session → Session}
    (hrun : ∀ x, (f x).running = true → x.running = true) (hunread : ∀ x, (f x).unread = x.unread)
    (hreplies : ∀ x, (f x).replies = x.replies) : Unanswered s r (r.modifySession t f) := by
  refine ⟨Nat.le_of_eq (List.length_modify ..).symm, fun _ h => ?_,
    session_modifySession_congr Session.unread hunread s,
    session_modifySession_congr Session.replies hreplies s⟩
  rw [session_modifySession] at h
  split at h
  · exact hrun _ h
  · exact h

theorem of_silent (h : Silent r r') (hu : Uncounted r r') : Unanswered s r r' where
  length := h.length
  running hs hrun := (h.running s hs).symm.trans hrun
  unread := congrArg Prod.snd (hu.session_account s)
  replies := by rw [Session.replies, h.outbox, Session.replies]

end Unanswered

/-- What queues nothing and counts nothing answers nothing. -/
theorem each_unanswered {α : Type} {p : Op α} (h : p.Each Silent) (hu : p.Each Uncounted) :
    p.Each (Unanswered s) :=
  (h.and hu).mono fun _ _ h => .of_silent h.1 h.2

theorem push_unanswered {response : Response} (h : response.isReply = false) :
    (push t header response).Each (Unanswered s) := by
  refine each_modify fun r => .modifySession r t (fun _ => id) (fun _ => rfl) fun x => ?_
  rw [Session.replies_push, h, if_neg Bool.false_ne_true, List.append_nil]

theorem notifyStop_unanswered (t : SessionRef) (id : ChannelId) (relay : SocketAddr) :
    (notifyStop t id relay).Each (Unanswered s) :=
  composed_each.notifyStop (push_unanswered rfl)

theorem closeEnd_unanswered (id : ChannelId) (side : Side) (e : Channel.Endpoint) :
    (closeEnd id side e).Each (Unanswered s) :=
  composed_each.closeEnd (each_unanswered (leave_silent ..) (leave_uncounted ..))
    (each_unanswered (forgetChannel_silent id) (forgetChannel_uncounted id))
    (notifyStop_unanswered ..)

theorem stopChannel_unanswered (c : ChannelRef) : (stopChannel c).Each (Unanswered s) :=
  composed_each.stopChannel (each_atomic fun _ => .of_sessions rfl)
    (composed_each.tearDown closeEnd_unanswered (each_modify fun _ => .of_sessions rfl)
      (each_modify fun _ => .of_sessions rfl))

theorem createChannel_unanswered (src : SessionRef) (id : SessionId) :
    (createChannel src id).Each (Unanswered s) :=
  composed_each.createChannel (each_unanswered reserveSlot_silent reserveSlot_uncounted)
    (each_modify fun _ => .of_sessions rfl) (fun _ _ => each_atomic fun _ => .of_sessions rfl)
    (fun _ _ => each_unanswered (listChannel_silent ..) (listChannel_uncounted ..))
    (fun _ => each_unanswered (joinSessions_silent _) (joinSessions_uncounted _))
    (fun _ => each_unanswered (forgetChannel_silent _) (forgetChannel_uncounted _))
    stopChannel_unanswered id

theorem stopSession_unanswered (t : SessionRef) : (stopSession t).Each (Unanswered s) := by
  have hstop : (stopChannels t).Each (Unanswered s) :=
    composed_each.stopChannels
      (fun _ _ => each_unanswered (takeChannels_silent ..) (takeChannels_uncounted ..))
      (composed_each.discardChannel
        (fun _ => each_unanswered (forgetChannel_silent _) (forgetChannel_uncounted _))
        stopChannel_unanswered) stopChannel_unanswered t
  exact composed_each.stopSession
    (each_atomic fun r => .modifySession r t (fun _ => nofun) (fun _ => rfl) fun _ => rfl)
    (each_modify fun _ => .of_sessions rfl) hstop
    (each_unanswered (dismiss_silent t) (dismiss_uncounted t))
    ((detach_sameSessions t).mono fun _ _ h => .of_sessions h.sessions)

/-- A session that begins has not been answered yet. -/
theorem startSession_unanswered (role : Role) (peer localAddr : SocketAddr) (held : Bool) :
    (startSession role peer localAddr held).Each (Unanswered s) := by
  refine each_atomic fun r => ⟨Nat.le.intro (List.length_append ..).symm, fun hs hrun => ?_,
    startSession_congr Session.unread rfl s, startSession_congr Session.replies rfl s⟩
  change (((startSession role peer localAddr held).exec r).session s).running = true at hrun
  rwa [session_startSession, if_neg (Nat.ne_of_lt hs)] at hrun

/-! ## Operations that answer -/

/-- The operation queues just these replies for the session, in this order, whatever is done
between its steps. -/
inductive Queues (s : SessionRef) {α : Type} : Op α → List (Header × Opcode) → Prop
  | done (a : α) : Queues s (.done a) []
  | quiet {act : Relay → Relay} {rest : Relay → Op α} {replies : List (Header × Opcode)}
      (hact : ∀ r, Unanswered s r (act r)) (hrest : ∀ r, Queues s (rest r) replies) :
      Queues s (.step act rest) replies
  | reply {p : Push} {rest : Relay → Op α} {replies : List (Header × Opcode)}
      (hreply : p.response.isReply = true) (hrest : ∀ r, Queues s (rest r) replies) :
      Queues s (.step (·.modifySession s (·.push p.header p.response)) rest)
        (p.heading :: replies)

section Queues

variable {α β : Type} {p : Op α} {f : α → Op β} {replies more : List (Header × Opcode)}

theorem queues_of_each (h : p.Each (Unanswered s)) : Queues s p [] := by
  induction h with
  | done a => exact .done a
  | step hact _ ih => exact .quiet hact ih

theorem Queues.each (h : Queues s p []) : p.Each (Unanswered s) := by
  generalize hnone : ([] : List (Header × Opcode)) = replies at h
  induction h with
  | done a => exact .done a
  | quiet hact _ ih => exact .step hact fun r => ih r hnone
  | reply => cases hnone

theorem queues_pure (a : α) : Queues s (pure a : Op α) [] := .done a

theorem queues_bind (hp : Queues s p replies) (hf : ∀ a, Queues s (f a) more) :
    Queues s (p >>= f) (replies ++ more) := by
  change Queues s (p.bind f) _
  induction hp with
  | done a => exact hf a
  | quiet hact _ ih => exact .quiet hact ih
  | reply hreply _ ih => exact .reply hreply ih

/-- Steps that answer nothing come first. -/
theorem queues_after (hp : p.Each (Unanswered s)) (hf : ∀ a, Queues s (f a) replies) :
    Queues s (p >>= f) replies :=
  queues_bind (queues_of_each hp) hf

theorem queues_read {g : Relay → α} (hf : ∀ a, Queues s (f a) replies) :
    Queues s (read g >>= f) replies :=
  queues_after (each_read g) hf

/-- A reply is for its own session only. -/
theorem queues_push {response : Response} (h : response.isReply = true) :
    Queues s (push t header response) (if t = s then [(header, response.opcode)] else []) := by
  by_cases hts : t = s
  · subst hts
    rw [if_pos rfl]
    exact .reply (p := ⟨header, response⟩) h fun _ => .done ()
  · rw [if_neg hts]
    refine queues_of_each (each_modify fun r => .of_session ?_ ?_)
    · exact Nat.le_of_eq (List.length_modify ..).symm
    · rw [session_modifySession, if_neg fun h => hts h.1]

end Queues

theorem serveLogin_queues (t : SessionRef) (header : Header) (guid : Guid) (privateAddr : Ipv4) :
    Queues s (serveLogin t header guid privateAddr) (if t = s then [(header, .login)] else []) := by
  have hmodify {f : Session → Session} (hrun : ∀ x, (f x).running = x.running)
      (hunread : ∀ x, (f x).unread = x.unread) (hreplies : ∀ x, (f x).replies = x.replies) :
      (Steps.modify fun r : Relay => r.modifySession t f).Each (Unanswered s) :=
    each_modify fun r => .modifySession r t (fun x h => (hrun x).symm.trans h) hunread hreplies
  have hlogIn : (logIn t guid).Each (Unanswered s) :=
    (logIn_keepsSessions t guid).mono fun _ _ => .of_sessions
  refine queues_read fun session => ?_
  split
  · exact queues_push rfl
  · refine queues_after hlogIn fun result => ?_
    split
    · exact queues_read fun _ => queues_push rfl
    · refine queues_after (hmodify (fun _ => rfl) (fun _ => rfl) fun _ => rfl) fun _ => ?_
      refine queues_after (hmodify (fun _ => rfl) (fun _ => rfl) fun _ => rfl) fun _ => ?_
      refine queues_after (each_modify fun _ => .of_sessions rfl) fun _ => ?_
      rw [← List.append_nil (if t = s then _ else _)]
      refine queues_bind (queues_push rfl) fun _ => queues_read fun running => ?_
      split
      · exact queues_of_each (each_unanswered (dismiss_silent t) (dismiss_uncounted t))
      · exact queues_pure ()

theorem serveProxy_queues (t : SessionRef) (header : Header) (destination : SessionId) :
    Queues s (serveProxy t header destination) (if t = s then [(header, .proxy)] else []) := by
  refine queues_read fun session => ?_
  split
  · exact queues_push rfl
  · split
    · exact queues_push rfl
    · refine queues_after (createChannel_unanswered t destination) fun created => ?_
      split
      · exact queues_push rfl
      · refine queues_after (each_unanswered (startChannel_silent _) (startChannel_uncounted _))
          fun _ => ?_
        refine queues_read fun channel => queues_read fun session => ?_
        exact queues_after (push_unanswered rfl) fun _ => queues_push rfl

theorem servePeers_queues (t : SessionRef) (header : Header) :
    Queues s (servePeers t header) (if t = s then [(header, .getPeers)] else []) :=
  queues_read fun _ => queues_push rfl

/-! ## Frames -/

theorem decode_of_isProxy {frame : Frame}
    (h : Opcode.ofCode? frame.header.function = some .proxy) :
    (∃ source destination game,
        Request.decode frame = .ok (.proxy source destination game)) ∨
      ∃ field needed present, Request.decode frame = .error (.truncated field needed present) := by
  rcases Request.decode_of_asked h ⟨nofun, nofun⟩ with ⟨request, hop, hdecode⟩ | hcut
  · cases request with
    | proxy source destination game => exact .inl ⟨source, destination, game, hdecode⟩
    | heartbeat | login | getPeers => cases hop
  · exact .inr hcut

theorem refuseMalformed_queues (t : SessionRef) (frame : Frame)
    (hcut : (Request.decode frame).isOk = false) :
    Queues s (refuseMalformed t frame.header) (if t = s then frame.due else []) := by
  unfold refuseMalformed Frame.due
  split
  · rename_i hcode
    rw [hcode]
    exact queues_read fun _ => queues_push rfl
  · rename_i hcode
    rw [hcode]
    exact queues_push rfl
  · rename_i hlogin hproxy
    have hnone : frame.due = [] := Frame.due_eq_nil hlogin hproxy hcut
    unfold Frame.due at hnone
    rw [hnone, ite_self]
    exact queues_pure ()

/-- Serving a frame queues the reply that it calls for, and none for any other session. -/
theorem serveFrame_queues (t : SessionRef) (frame : Frame) :
    Queues s (serveFrame t frame) (if t = s then frame.due else []) := by
  unfold serveFrame
  split
  · rename_i hdecode
    rw [Frame.due, Request.opcode_of_decode hdecode]
    simp only [Request.opcode, ite_self]
    exact queues_pure ()
  · rename_i hdecode
    rw [Frame.due, Request.opcode_of_decode hdecode]
    exact serveLogin_queues ..
  · rename_i hdecode
    rw [Frame.due, Request.opcode_of_decode hdecode]
    exact serveProxy_queues ..
  · rename_i hdecode
    rw [Frame.due, Request.opcode_of_decode hdecode]
    simp only [Request.opcode, hdecode, Except.isOk, Except.toBool, if_true]
    exact servePeers_queues ..
  · rename_i hdecode
    exact refuseMalformed_queues t frame (by rw [hdecode]; rfl)
  · -- Neither a login nor a request for a channel fails in another way than by being cut short.
    rename_i e hcut hdecode
    have hnone : frame.due = [] := by
      refine Frame.due_eq_nil (fun hlogin => ?_) (fun hproxy => ?_) (by rw [hdecode]; rfl)
      · rcases decode_of_isLogin hlogin with ⟨_, _, hok⟩ | ⟨_, _, _, htruncated⟩
        · cases hdecode.symm.trans hok
        · cases hdecode.symm.trans htruncated
          exact hcut _ _ _ rfl
      · rcases decode_of_isProxy hproxy with ⟨_, _, _, hok⟩ | ⟨_, _, _, htruncated⟩
        · cases hdecode.symm.trans hok
        · cases hdecode.symm.trans htruncated
          exact hcut _ _ _ rfl
    rw [hnone, ite_self]
    exact queues_pure ()

theorem servePiece_queues (t : SessionRef) (piece : Frame.Piece) :
    Queues s (servePiece t piece) (if t = s then piece.due else []) := by
  cases piece with
  | frame frame => exact serveFrame_queues t frame
  | skip m1 m2 version =>
      have hcount : (servePiece t (.skip m1 m2 version)).Each (Unanswered s) :=
        each_modify fun _ => .of_sessions rfl
      show Queues s _ (if t = s then [] else [])
      rw [ite_self]
      exact queues_of_each hcount

/-- What is done for the stream of one session answers nobody else. -/
theorem receive_unanswered (hts : t ≠ s) (data : Bytes) :
    (receive t data).Each (Unanswered s) := by
  have hframe (frame : Frame) : (serveFrame t frame).Each (Unanswered s) := by
    have hqueues := serveFrame_queues (s := s) t frame
    rw [if_neg hts] at hqueues
    exact hqueues.each
  refine composed_each.receive (fun unread => each_modify fun r => .of_session ?_ ?_) hframe
    (each_modify fun _ => .of_sessions rfl) data
  · exact Nat.le_of_eq (List.length_modify ..).symm
  · rw [session_modifySession, if_neg fun h => hts h.1]

/-! ## Everything else that may happen -/

theorem event_unanswered {e : Event} (h : ∀ data, e ≠ .bytes s data) :
    e.op.Each (Unanswered s) := by
  have hconnection {α : Type} {p : Op α} (hp : p.Each SameSessions) : p.Each (Unanswered s) :=
    hp.mono fun _ _ h => .of_sessions h.sessions
  refine composed_each.event stopChannel_unanswered stopSession_unanswered
    (fun c => each_unanswered (report_silent c) (report_uncounted c))
    (fun _ => each_modify fun _ => .of_sessions rfl) (each_modify fun _ => .of_sessions rfl)
    (composed_each.arrival (hconnection reserveConnection_sameSessions) startSession_unanswered
      (hconnection releaseConnection_sameSessions) (fun t data he => ?_)
      fun _ _ _ _ _ => each_modify fun _ => .of_sessions rfl)
  refine receive_unanswered (fun hts => ?_) data
  subst hts
  exact h data he

/-- Only what comes in over its own connection is answered to a session. -/
theorem call_unanswered {call : Call} (h : ∀ data, call ≠ .event (.bytes s data)) :
    call.op.Each (Unanswered s) := by
  refine composed_each.call (fun e he => event_unanswered fun data hbytes => ?_)
    createChannel_unanswered stopChannel_unanswered
  exact h data (by rw [he, hbytes])

end Relay

end PeerRelay
