import PeerRelay.Proofs.Pool
import PeerRelay.Proofs.Relay.RegistrationRuns
import PeerRelay.Proofs.Relay.Replies
import PeerRelay.Proofs.Relay.StreamCounts

/-!
# Requests are answered one by one

The requests of a client are read off its stream by one task, and other tasks do whatever they
like between any two of its steps. It keeps in mind which replies it has queued and which the
rest of the stream calls for. So, whatever the others do, the replies answer the requests one by
one and in their order.
-/

namespace PeerRelay.Relay

open Steps
open Wire (Frame Header Opcode)

variable {r : Relay} {s : SessionRef}

/-- The task that reads what arrives on a session's connection, one portion after another. -/
def readAll (s : SessionRef) (portions : List Bytes) : Op Unit := portions.forM (receive s)

/-- A task that makes calls, one after another. -/
def callAll (calls : List Call) : Op Unit := calls.forM fun call => do let _ ← call.op

/-! ## What the reader keeps in mind -/

/-- How far a session's stream has been read. -/
structure Reading where
  /-- The replies so far, -/
  answered : List (Header × Opcode) := []
  /-- and those that the rest of the stream calls for. -/
  ahead : List (Header × Opcode)
  unread : Bytes
  /-- The reader has seen that the session is over. -/
  sawEnd : Bool := false

/-- The reader is the first task; what the others keep in mind does not matter. -/
def readingProtocol (s : SessionRef) (before due : List (Header × Opcode)) :
    Protocol Relay Reading where
  Inv notes r :=
    s < r.sessions.length ∧ (r.session s).replies = before ++ (notes 0).answered ∧
      (notes 0).answered ++ (notes 0).ahead = due ∧ (r.session s).unread = (notes 0).unread ∧
      ((notes 0).sawEnd = true → (r.session s).running = false)
  Notes _ _ _ := True

section Protocol

variable {before due : List (Header × Opcode)} {i : Nat} {g : Reading}

/-- What answers nothing to the session does not concern the reader. -/
theorem follows_of_unanswered {α : Type} {p : Op α} (h : p.Each (Unanswered s)) :
    (readingProtocol s before due).Follows i (fun _ g' => g' = g) p g := by
  refine Protocol.follows_of_each h fun notes r act _ hinv hact => ⟨trivial, ?_⟩
  obtain ⟨hs, hreplies, hdue, hunread, hover⟩ := hinv
  have hsame := hact r
  refine ⟨Nat.lt_of_lt_of_le hs hsame.length, hsame.replies.trans hreplies, hdue,
    hsame.unread.trans hunread, fun h => ?_⟩
  refine Bool.eq_false_iff.mpr fun hrun => ?_
  cases (hover h).symm.trans (hsame.running hs hrun)

/-- The reader queues replies that come next. -/
theorem Queues.follows {α : Type} {p : Op α} {replies more : List (Header × Opcode)}
    (h : Queues s p replies) (hg : g.ahead = replies ++ more) :
    (readingProtocol s before due).Follows 0
      (fun _ g' => g' = { g with answered := g.answered ++ replies, ahead := more }) p g := by
  induction h generalizing g with
  | done a =>
      show g = _
      rw [List.append_nil, show more = g.ahead from hg.symm]
  | quiet hact _ ih =>
      intro notes r hnotes hinv
      have hstep : (readingProtocol s before due).Follows 0 (fun _ g' => g' = g)
          (.modify _ : Op Unit) g := follows_of_unanswered (each_modify hact)
      obtain ⟨g', -, hinv', rfl⟩ := hstep notes r hnotes hinv
      exact ⟨g', trivial, hinv', ih r hg⟩
  | @reply p rest replies hreply _ ih =>
      intro notes r hnotes hinv
      subst hnotes
      obtain ⟨hs, hreplies, hdue, hunread, hover⟩ := hinv
      have hself : (r.modifySession s (·.push p.header p.response)).session s =
          (r.session s).push p.header p.response :=
        (session_modifySession ..).trans (if_pos ⟨rfl, hs⟩)
      refine ⟨{ notes 0 with
        answered := (notes 0).answered ++ [p.heading], ahead := replies ++ more }, trivial, ?_, ?_⟩
      · simp only [readingProtocol, Function.update_self, hself]
        refine ⟨Nat.lt_of_lt_of_eq hs (List.length_modify ..).symm, ?_, ?_, hunread, hover⟩
        · rw [Session.replies_push, hreply, if_pos rfl, hreplies, List.append_assoc]
          rfl
        · rw [← hdue, hg, List.append_assoc]
          rfl
      · refine (ih r (g := { notes 0 with
          answered := (notes 0).answered ++ [p.heading], ahead := replies ++ more }) rfl).mono ?_
        rintro _ g' rfl
        simp only [List.append_assoc, List.singleton_append]

/-- The reader looks at the session and notes whether it is over. -/
theorem follows_regard {α : Type} (f : Session → α) :
    (readingProtocol s before due).Follows 0
      (fun a g' => ∃ x : Session, a = f x ∧ x.unread = g.unread ∧
        (g.sawEnd = true → x.running = false) ∧ g' = { g with sawEnd := !x.running })
      (.read fun r => f (r.session s)) g := by
  refine Protocol.follows_atomic fun notes r hnotes hinv => ?_
  subst hnotes
  obtain ⟨hs, hreplies, hdue, hunread, hover⟩ := hinv
  refine ⟨_, trivial, ?_, r.session s, rfl, hunread, hover, rfl⟩
  simp only [readingProtocol, Function.update_self]
  refine ⟨hs, hreplies, hdue, hunread, fun h => ?_⟩
  rwa [Bool.not_eq_true'] at h

/-- Pieces are answered one after another, unless the session is over before the last of them. -/
theorem servePieces_follows (pieces : List Frame.Piece) {more : List (Header × Opcode)}
    (hg : g.ahead = pieces.flatMap Frame.Piece.due ++ more) :
    (readingProtocol s before due).Follows 0
      (fun _ g' => g'.sawEnd = true ∨ g'.unread = g.unread ∧ g'.ahead = more)
      (servePieces s pieces) g := by
  induction pieces generalizing g with
  | nil => exact Protocol.follows_pure (.inr ⟨rfl, hg⟩)
  | cons piece rest ih =>
      rw [List.flatMap_cons, List.append_assoc] at hg
      have hpiece := servePiece_queues (s := s) s piece
      rw [if_pos rfl] at hpiece
      refine Protocol.follows_bind (hpiece.follows hg) ?_
      rintro _ _ rfl
      refine Protocol.follows_bind (follows_regard Session.running) ?_
      rintro _ _ ⟨x, rfl, -, -, rfl⟩
      cases hrun : x.running with
      | true =>
          exact ih (g := { g with
            answered := g.answered ++ piece.due
            ahead := rest.flatMap Frame.Piece.due ++ more
            sawEnd := false }) rfl
      | false => exact Protocol.follows_pure (.inl rfl)

/-- What arrives is answered together with what was left before. -/
theorem receive_follows (data : Bytes) (more : List (Header × Opcode))
    (hg : g.sawEnd = true ∨
      g.ahead = (Frame.drain (g.unread ++ data)).1.flatMap Frame.Piece.due ++ more) :
    (readingProtocol s before due).Follows 0
      (fun _ g' => g'.sawEnd = true ∨
        g'.unread = (Frame.drain (g.unread ++ data)).2 ∧ g'.ahead = more)
      (receive s data) g := by
  refine Protocol.follows_bind (follows_regard fun x => x) ?_
  rintro x _ ⟨_, rfl, hunread, hover, rfl⟩
  cases hrun : x.running with
  | false => exact Protocol.follows_pure (.inl rfl)
  | true =>
      have hahead := hg.resolve_left fun h => by
        cases hrun.symm.trans (hover h)
      rw [if_pos rfl, hunread]
      refine Protocol.follows_bind
        (Q := fun _ g' =>
          g' = { g with unread := (Frame.drain (g.unread ++ data)).2, sawEnd := false }) ?_ ?_
      · refine Protocol.follows_modify fun notes r hnotes hinv => ?_
        obtain ⟨hs, hreplies, hdue, -, -⟩ := hinv
        refine ⟨_, trivial, ?_, rfl⟩
        simp only [readingProtocol, Function.update_self]
        rw [hnotes] at hreplies hdue
        refine ⟨Nat.lt_of_lt_of_eq hs (List.length_modify ..).symm, ?_, hdue, ?_, nofun⟩
        · rw [← hreplies]
          exact session_modifySession_congr Session.replies
            (f := fun x => { x with unread := (Frame.drain (g.unread ++ data)).2 })
            (fun _ => rfl) s
        · rw [session_modifySession, if_pos ⟨rfl, hs⟩]
      · rintro _ _ rfl
        exact servePieces_follows
          (g := { g with unread := (Frame.drain (g.unread ++ data)).2, sawEnd := false }) _ hahead

theorem repliesDue_append (unread data more : Bytes) :
    Frame.repliesDue (unread ++ (data ++ more)) =
      (Frame.drain (unread ++ data)).1.flatMap Frame.Piece.due ++
        Frame.repliesDue ((Frame.drain (unread ++ data)).2 ++ more) := by
  rw [← List.append_assoc, Frame.repliesDue, Frame.drain_append, List.flatMap_append]
  rfl

/-- Portion by portion, the whole stream is answered, unless the session is over before. -/
theorem readAll_follows (portions : List Bytes)
    (hg : g.sawEnd = true ∨
      Frame.next g.unread = none ∧ g.ahead = Frame.repliesDue (g.unread ++ portions.flatten)) :
    (readingProtocol s before due).Follows 0
      (fun _ g' => g'.sawEnd = true ∨ g'.ahead = []) (readAll s portions) g := by
  induction portions generalizing g with
  | nil =>
      refine Protocol.follows_pure (hg.imp_right fun ⟨hnext, hahead⟩ => ?_)
      rw [hahead, List.flatten_nil, List.append_nil, Frame.repliesDue,
        Frame.drain_of_next_eq_none hnext]
      rfl
  | cons data portions ih =>
      refine Protocol.follows_bind
        (receive_follows data (Frame.repliesDue
          ((Frame.drain (g.unread ++ data)).2 ++ portions.flatten))
          (hg.imp_right fun ⟨_, hahead⟩ => ?_))
        fun _ g' hg' => ih (hg'.imp_right fun ⟨hunread, hahead⟩ => ?_)
      · rw [hahead, List.flatten_cons, repliesDue_append]
      · rw [hunread]
        exact ⟨(Frame.drains_drain _).next_left, hahead⟩

end Protocol

/-! ## Every schedule -/

/-- The step does nothing, or it sends the peer table under a header. -/
def OnlyShows (s : SessionRef) (header : Header) (r r' : Relay) : Prop :=
  r' = r ∨ ∃ table, r' = r.modifySession s (·.push header (.peers table))

/-- Of all frames only requests to log in and requests for a channel do more than to ask for the
peer table. -/
theorem serveFrame_onlyShows (s : SessionRef) {frame : Frame}
    (hlogin : Opcode.ofCode? frame.header.function ≠ some .login)
    (hproxy : Opcode.ofCode? frame.header.function ≠ some .proxy) :
    (serveFrame s frame).Each (OnlyShows s frame.header) := by
  unfold serveFrame
  split
  · exact each_pure ()
  · rename_i hdecode
    exact absurd (Request.opcode_of_decode hdecode) hlogin
  · rename_i hdecode
    exact absurd (Request.opcode_of_decode hdecode) hproxy
  · refine each_bind (each_atomic fun _ => .inl rfl) fun table => ?_
    exact each_modify fun _ => .inr ⟨table, rfl⟩
  · unfold refuseMalformed
    split
    · exact absurd ‹_› hlogin
    · exact absurd ‹_› hproxy
    · exact each_pure ()
  · exact each_pure ()

/-- The requests of a client were answered one by one, as far as its stream was read. -/
structure AnsweredInOrder (r : Relay) (s : SessionRef) (portions : List Bytes)
    (p : Pool Relay Unit) : Prop where
  /-- The replies so far are those that the first frames call for, each under the header of its
  frame and with the same function. -/
  replies : ∃ answered,
    answered <+: Frame.repliesDue ((r.session s).unread ++ portions.flatten) ∧
      (p.state.session s).replies = (r.session s).replies ++ answered
  headed : ∀ (frame : Frame) (reply : Header × Opcode), reply ∈ frame.due →
    reply.1 = frame.header ∧ Opcode.ofCode? frame.header.function = some reply.2
  /-- If the session still runs when all was read, none is missing. -/
  complete : ∀ t, p.tasks[0]? = some t → t.result?.isSome →
    (p.state.session s).running = true →
      (p.state.session s).replies =
        (r.session s).replies ++ Frame.repliesDue ((r.session s).unread ++ portions.flatten)
  /-- Nothing that was read has ended a session, -/
  running : ∀ t, p.tasks[0]? = some t → ∀ m ∈ t.past, ∀ u,
    (m.left.session u).running = (m.found.session u).running
  /-- and apart from requests to log in and for a channel, nothing has changed anything but
  what is queued for this client. -/
  shows : ∀ frame : Frame, Opcode.ofCode? frame.header.function ≠ some .login →
    Opcode.ofCode? frame.header.function ≠ some .proxy →
      (serveFrame s frame).Each (OnlyShows s frame.header)

/-- After any run, whatever portions the stream of a session arrives in and whatever else is
called for meanwhile, by however many tasks in whatever turns, the requests in the stream are
answered one by one and in order. -/
theorem answered_in_order (config : Config) (events : List Event) (s : SessionRef)
    (hrun : ((Relay.after { config } events).session s).running = true) (portions : List Bytes)
    (others : List (List Call))
    (hothers : ∀ calls ∈ others, ∀ data, .event (.bytes s data) ∉ calls) (turns : List Nat) :
    AnsweredInOrder (Relay.after { config } events) s portions
      ((Pool.start (Relay.after { config } events)
        (readAll s portions :: others.map callAll)).play turns) := by
  have hnext : Frame.next ((Relay.after { config } events).session s).unread = none := by
    rw [(streamsCounted_after config events).unread]
    exact (Frame.drains_drain _).next_left
  generalize Relay.after { config } events = r at *
  have hstart : Pool.Keeps (readingProtocol s (r.session s).replies
      (Frame.repliesDue ((r.session s).unread ++ portions.flatten)))
      (fun _ => { ahead := Frame.repliesDue ((r.session s).unread ++ portions.flatten)
                  unread := (r.session s).unread })
      (fun i _ g => i = 0 → g.sawEnd = true ∨ g.ahead = [])
      (Pool.start r (readAll s portions :: others.map callAll))
      (fun _ => { ahead := Frame.repliesDue ((r.session s).unread ++ portions.flatten)
                  unread := (r.session s).unread }) := by
    refine Pool.keeps_start ⟨lt_of_running hrun, (List.append_nil _).symm, rfl, rfl, nofun⟩ ?_
    intro i op hop
    cases i with
    | zero =>
        cases hop
        exact (readAll_follows portions (.inr ⟨hnext, rfl⟩)).mono fun _ _ h _ => h
    | succ i =>
        rw [List.getElem?_cons_succ, List.getElem?_map] at hop
        obtain ⟨calls, hcalls, rfl⟩ := Option.map_eq_some_iff.mp hop
        have heach : (callAll calls).Each (Unanswered s) := by
          have hone := hothers calls (List.mem_of_getElem? hcalls)
          refine each_forM_of_mem fun call hcall => ?_
          refine each_bind (call_unanswered fun data heq => ?_) fun _ => each_pure ()
          exact hone data (heq ▸ hcall)
        exact (follows_of_unanswered heach).mono fun _ _ _ h => absurd h (Nat.succ_ne_zero i)
  obtain ⟨notes, hkeeps⟩ := hstart.play turns
  obtain ⟨-, hreplies, hdue, -, hover⟩ := hkeeps.inv
  refine ⟨⟨_, ⟨_, hdue⟩, hreplies⟩, fun _ _ => Frame.function_of_mem_due,
    fun t ht hdone hstill => ?_, fun t ht m hm u => ?_, fun frame => serveFrame_onlyShows s⟩
  · obtain ⟨a, ha⟩ := Option.isSome_iff_exists.mp hdone
    rcases hkeeps.ended ht ha rfl with h | h
    · cases hstill.symm.trans (hover h)
    · rw [h, List.append_nil] at hdue
      rw [hreplies, hdue]
  · have hseats : (readAll s portions).Each SameSeats :=
      each_forM (fun data => receive_sameSeats s data) portions
    exact (Pool.moves_of_each rfl hseats turns ht m hm).session_running u

/-- A client asks for the peer table and for a channel, in two portions that do not end where the
frames do, while the session that it asks for ends. -/
theorem answered_in_order_deserted :
    Frame.repliesDue (Request.encode (.getPeers 1001) ++ Request.encode (.proxy 1001 1000 "")) =
        [((Request.getPeers 1001).frame.header, .getPeers),
          ((Request.proxy 1001 1000 "").frame.header, .proxy)] ∧
      AnsweredInOrder (Relay.after {} (linked.take 4)) 1
        [(Request.encode (.getPeers 1001) ++ Request.encode (.proxy 1001 1000 "")).take 15,
          (Request.encode (.getPeers 1001) ++ Request.encode (.proxy 1001 1000 "")).drop 15]
        ((Pool.start (Relay.after {} (linked.take 4))
          [readAll 1
            [(Request.encode (.getPeers 1001) ++ Request.encode (.proxy 1001 1000 "")).take 15,
              (Request.encode (.getPeers 1001) ++ Request.encode (.proxy 1001 1000 "")).drop 15],
            callAll [.event (.disconnect 0)]]).play
          (List.replicate 8 0 ++ List.replicate 8 1 ++ List.replicate 24 0)) := by
  have hrun : ((Relay.after {} (linked.take 4)).session 1).running = true := by decide +kernel
  refine ⟨by decide +kernel, ?_⟩
  refine answered_in_order {} (linked.take 4) 1 hrun _ [[.event (.disconnect 0)]] ?_ _
  intro calls hcalls data hmem
  obtain rfl := List.mem_singleton.mp hcalls
  cases List.mem_singleton.mp hmem

end PeerRelay.Relay
