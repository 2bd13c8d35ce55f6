import PeerRelay.Proofs.Relay.Moments
import PeerRelay.Proofs.Relay.Offers
import PeerRelay.Proofs.Relay.Writing
import PeerRelay.Proofs.Wire.Grammar
import PeerRelay.Proofs.Wire.Response

/-!
# What clients read

Whatever the clients of a relay send, each of them reads a stream of whole frames that decode
to the responses that were queued for it. A response to a request is written under the
request's own header; a client can be trusted with that because a frame is only served when
its header is valid.
-/

namespace PeerRelay

open Steps
open Wire (Frame Header Opcode)

/-- The header is a copy of the other but for the function and the length. -/
structure Wire.Header.CopyOf (header other : Header) : Prop where
  magic1 : header.magic1 = other.magic1
  magic2 : header.magic2 = other.magic2
  protoVersion : header.protoVersion = other.protoVersion
  serverVersion : header.serverVersion = other.serverVersion
  keyIndex : header.keyIndex = other.keyIndex

theorem Push.copyOf_frame (p : Push) : p.frame.header.CopyOf p.header := ⟨rfl, rfl, rfl, rfl, rfl⟩

namespace Relay

variable {r r' r'' : Relay} {s : SessionRef} {Q : SessionRef → Push → Prop}

/-! ## Answers -/

/-- What can be queued for a session because a session sent a frame. -/
inductive Answers (s : SessionRef) (frame : Frame) : SessionRef → Push → Prop where
  /-- The sender gets a reply, under a copy of the frame's header. -/
  | reply (p : Push) (hcopy : p.frame.header.CopyOf frame.header)
      (hfunction : p.frame.header.function = frame.header.function) : Answers s frame s p
  /-- Someone is told of a new channel, under a copy of the header that asked for it. -/
  | access (t : SessionRef) (p : Push) (hcopy : p.frame.header.CopyOf frame.header)
      (haccess : p.response.opcode = .access)
      (hproxy : frame.header.function = Opcode.proxy.code) : Answers s frame t p
  /-- Someone is told that a channel is over. -/
  | notice (t : SessionRef) (id : ChannelId) (relay : SocketAddr) :
      Answers s frame t (stopPush id relay)

/-- The body of the push is short, or it is the peer table as it stands. -/
def Brief (r : Relay) (p : Push) : Prop :=
  p.response.body.length ≤ Response.maxBody ∨ p.response.body = r.peerTable

/-- Serving a frame queues answers to it, and only the peer table can be long. -/
theorem servePiece_along (hrun : (r.session s).running = true) (frame : Frame) :
    (servePiece s (.frame frame)).Along
      (Pushes fun t p => Answers s frame t p ∧ Brief r p) r := by
  have hbrief {p : Push} (h : p.response.body.length ≤ 18) : Brief r p :=
    .inl (Nat.le_trans h (by decide))
  have hreply (response : Response) (hop : response.opcode.code = frame.header.function) :
      Answers s frame s ⟨frame.header, response⟩ := .reply _ (Push.copyOf_frame _) hop
  unfold servePiece serveFrame
  dsimp only
  split
  · exact along_pure _ _
  · rename_i hdecode
    have hop := (Request.function_of_decode hdecode).symm
    exact serveLogin_along hrun fun result id => ⟨hreply _ hop, hbrief (of_decide_eq_true rfl)⟩
  · rename_i hdecode
    have hop := Request.function_of_decode hdecode
    refine serveProxy_along hrun
      (fun result => ⟨hreply _ hop.symm, hbrief (of_decide_eq_true rfl)⟩) fun _ => ⟨?_, ?_, ?_⟩
    · exact fun t relay => ⟨.notice .., hbrief (of_decide_eq_true rfl)⟩
    · exact fun addr port => ⟨hreply _ hop.symm, hbrief (of_decide_eq_true rfl)⟩
    · exact fun t source addr port privateAddr =>
        ⟨.access _ _ (Push.copyOf_frame _) rfl hop, hbrief (of_decide_eq_true rfl)⟩
  · rename_i hdecode
    refine servePeers_along hrun ⟨hreply _ (Request.function_of_decode hdecode).symm, ?_⟩
    split
    · exact .inr rfl
    · exact hbrief (of_decide_eq_true rfl)
  · exact refuseMalformed_along hrun
      (fun id hop => ⟨hreply _ (Opcode.code_of_ofCode? hop).symm, hbrief (of_decide_eq_true rfl)⟩)
      fun hop => ⟨hreply _ (Opcode.code_of_ofCode? hop).symm, hbrief (of_decide_eq_true rfl)⟩
  · exact along_pure _ _

/-! ## Events -/

theorem servePieces_along (hrun : (r.session s).running = true) (pieces : List Frame.Piece) :
    (servePieces s pieces).Along (Pushes fun _ _ => True) r := by
  induction pieces generalizing r with
  | nil => exact along_pure _ _
  | cons piece rest ih =>
      refine along_bind ?_ (along_read ?_)
      · cases piece with
        | skip m1 m2 version => exact along_silent (servePiece_skip_silent m1 m2 version) r
        | frame frame =>
            exact (servePiece_along hrun frame).mono fun _ _ h => h.mono fun _ _ _ => trivial
      · split
        · exact ih ‹_›
        · exact along_pure _ _

theorem receive_along (r : Relay) (s : SessionRef) (data : Bytes) :
    (receive s data).Along (Pushes fun _ _ => True) r := by
  refine along_read ?_
  split
  · rename_i hrun
    have hsilent := unread_silent r s (Frame.drain ((r.session s).unread ++ data)).2
    exact along_bind (along_modify hsilent.pushes)
      (servePieces_along (hsilent.still_running hrun) _)
  · exact along_pure _ _

/-- Apart from what comes in from clients, an event can only have it told that channels are
over. -/
theorem op_along (r : Relay) (e : Event) (hstop : ∀ t id relay, Q t (stopPush id relay))
    (hbytes : ∀ s data, e = .bytes s data → (receive s data).Along (Pushes Q) r) :
    e.op.Along (Pushes Q) r :=
  op_of_parts (T := fun _ p r => p.Along (Pushes Q) r) (fun r _ hsilent => along_silent hsilent r)
    along_bind (fun s r => stopSession_along hstop r s)
    (fun _ _ => stopChannel_along fun _ _ => hstop ..) r e hbytes

/-- In every step of every run, what is queued comes behind the rest and is for sessions that
run. -/
theorem isChain_pushes (r : Relay) (events : List Event) :
    (r :: r.moments events).IsChain (Pushes fun _ _ => True) :=
  isChain_moments (fun r e => op_along r e (fun _ _ _ => trivial)
    fun s data _ => receive_along r s data) r events

/-! ## From beginning to end -/

/-- Everything that was queued from one state to another is of a certain kind. -/
def Queued (Q : SessionRef → Push → Prop) (r r' : Relay) : Prop :=
  ∀ t, ∃ new, (r'.session t).outbox = (r.session t).outbox ++ new ∧ ∀ p ∈ new, Q t p

theorem Queued.refl (r : Relay) : Queued Q r r := fun _ => ⟨[], (List.append_nil _).symm, nofun⟩

theorem Queued.trans (h : Queued Q r r') (h' : Queued Q r' r'') : Queued Q r r'' := by
  intro t
  obtain ⟨new, hnew, hkind⟩ := h t
  obtain ⟨more, hmore, hkind'⟩ := h' t
  refine ⟨new ++ more, by rw [hmore, hnew, List.append_assoc], fun p hp => ?_⟩
  rcases List.mem_append.mp hp with hp | hp
  · exact hkind p hp
  · exact hkind' p hp

instance : Std.Refl (Queued Q) := ⟨Queued.refl⟩

instance : Trans (Queued Q) (Queued Q) (Queued Q) := ⟨Queued.trans⟩

theorem Queued.mono {Q' : SessionRef → Push → Prop} (h : Queued Q r r')
    (hQ : ∀ t p, Q t p → Q' t p) : Queued Q' r r' := by
  intro t
  obtain ⟨new, hnew, hkind⟩ := h t
  exact ⟨new, hnew, fun p hp => hQ t p (hkind p hp)⟩

theorem Pushes.queued (h : Pushes Q r r') : Queued Q r r' := by
  intro t
  obtain ⟨new, hnew, hkind⟩ := h.outbox t
  exact ⟨new, hnew, fun p hp => (hkind p hp).2⟩

theorem queued_exec {α : Type} {p : Op α} (h : p.Along (Pushes Q) r) : Queued Q r (p.exec r) :=
  rel_exec_of_along (h.mono fun _ _ => Pushes.queued)

/-! ## Frames that can be told from each other -/

/-- Everything that was queued for anybody can be told from what follows it. -/
def Framed (r : Relay) : Prop := ∀ s, ∀ p ∈ (r.session s).outbox, p.WellFramed

theorem Framed.queued (h : Framed r) (hqueued : Queued (fun _ p => p.WellFramed) r r') :
    Framed r' := by
  intro s p hp
  obtain ⟨new, hnew, hkind⟩ := hqueued s
  rw [hnew] at hp
  rcases List.mem_append.mp hp with hp | hp
  · exact h s p hp
  · exact hkind p hp

theorem wellFramed_stopPush (id : ChannelId) (relay : SocketAddr) :
    (stopPush id relay).WellFramed := ⟨rfl, of_decide_eq_true rfl⟩

/-- What is written under a copy of a valid header stands under a valid header. -/
theorem Answers.isValid {frame : Frame} {t : SessionRef} {p : Push} (h : Answers s frame t p)
    (hvalid : frame.header.isValid = true) : p.header.isValid = true := by
  have hcopied (hcopy : p.frame.header.CopyOf frame.header) : p.header.isValid = true := by
    obtain ⟨h₁, h₂, -, h₃, -⟩ := hcopy
    change p.header.magic1 = _ at h₁
    change p.header.magic2 = _ at h₂
    change p.header.serverVersion = _ at h₃
    rw [Header.isValid, h₁, h₂, h₃]
    exact hvalid
  cases h with
  | reply _ hcopy => exact hcopied hcopy
  | access _ _ hcopy => exact hcopied hcopy
  | notice _ id relay => exact (wellFramed_stopPush id relay).header

theorem Posted.brief (h : Posted r) {p : Push} (hp : Brief r p) :
    p.response.body.length ≤ Response.maxBody := by
  rcases hp with hshort | htable
  · exact hshort
  · obtain ⟨peers, hpeers⟩ := h.peerTable
    rw [htable, hpeers]
    exact Nat.le_trans (PeerTable.length_encode_le peers) (by decide)

theorem Framed.servePieces (h : Framed r) (hp : Posted r) (hset : Settled r)
    (hrun : (r.session s).running = true) (pieces : List Frame.Piece)
    (hvalid : ∀ frame, .frame frame ∈ pieces → frame.header.isValid = true) :
    Framed ((servePieces s pieces).exec r) := by
  induction pieces generalizing r with
  | nil => exact h
  | cons piece rest ih =>
      obtain ⟨hpiece, hstill⟩ := hset.servePiece hrun piece
      have hserved : Framed ((servePiece s piece).exec r) := by
        cases piece with
        | skip m1 m2 version =>
            exact h.queued (queued_exec (along_silent (servePiece_skip_silent m1 m2 version) r))
        | frame frame =>
            refine h.queued ((queued_exec (servePiece_along hrun frame)).mono fun t p hkind => ?_)
            exact ⟨hkind.1.isValid (hvalid frame List.mem_cons_self), hp.brief hkind.2⟩
      rw [exec_servePieces_cons piece rest hstill]
      exact ih hserved (hp.servePiece hset hrun piece) hpiece hstill
        fun frame hmem => hvalid frame (List.mem_cons_of_mem piece hmem)

theorem Framed.step (h : Framed r) (hp : Posted r) (hset : Settled r) (e : Event) :
    Framed (r.step e) := by
  by_cases hbytes : ∃ s data, e = .bytes s data
  · obtain ⟨s, data, rfl⟩ := hbytes
    by_cases hrun : (r.session s).running = true
    · have hsame := sameLogins_unread r s (Frame.drain ((r.session s).unread ++ data)).2
      have hsilent := unread_silent r s (Frame.drain ((r.session s).unread ++ data)).2
      rw [step_bytes hrun, midway, List.take_length]
      refine Framed.servePieces (h.queued hsilent.pushes.queued) (hp.same hsame.sameOffers)
        (hset.sameLogins hsame) (hsilent.still_running hrun) _ fun frame hframe => ?_
      exact (Frame.drains_drain _).isValid hframe
    · rw [step_bytes_of_ended (Bool.eq_false_iff.mpr hrun)]
      exact h
  · refine h.queued (queued_exec (op_along r e (fun _ => wellFramed_stopPush) ?_))
    exact fun s data he => absurd ⟨s, data, he⟩ hbytes

theorem Framed.after (h : Framed r) (hp : Posted r) (hset : Settled r) (events : List Event) :
    Framed (r.after events) := by
  induction events generalizing r with
  | nil => exact h
  | cons e rest ih => exact ih (h.step hp hset e) (hp.step hset e) (hset.step e)

theorem framed_after (config : Config) (events : List Event) :
    Framed (Relay.after { config } events) := by
  refine Framed.after (fun s p hp => ?_) (posted_init config) (settled_init config) events
  rw [session_of_le (Nat.zero_le s)] at hp
  exact absurd hp List.not_mem_nil

/-! ## What is read of a run -/

/-- What the client of a session reads of what the writer has written. -/
structure Reads (r : Relay) (s : SessionRef) (w : Writer) : Prop where
  /-- The first of what was queued is written, and the rest waits. In whatever chunks the
  client gets it, no byte is skipped and none is left over: whole frames come off the stream,
  and they decode to the responses that were queued, in their order. -/
  decoded : ∃ sent, (r.session s).outbox = sent ++ w.queue ∧
    ∀ chunks : List Bytes, chunks.flatten = w.written → ∃ frames : List Frame,
      Frame.drainEach [] chunks = (frames.map .frame, []) ∧
        frames.map Response.decode = sent.map fun p => .ok p.response
  /-- In as many turns as there are responses waiting, everything that was queued is written. -/
  finished : (w.queue.length.repeat Writer.turn w).queue = [] ∧
    (w.queue.length.repeat Writer.turn w).written = (r.session s).written
  /-- The stream is not closed before that, -/
  closed : w.closed = true → w.queue = []
  /-- and if the session has ended it is closed in the turn after that. -/
  ended : s < r.sessions.length → (r.session s).running = false →
    ((w.queue.length + 1).repeat Writer.turn w).closed = true

theorem reads_of_inStep {w : Writer} (h : Framed r) (hw : w.InStep s r) : Reads r s w := by
  refine ⟨?_, hw.finished, fun hc => (hw.closed hc).1, hw.closed_of_ended⟩
  obtain ⟨sent, hsent, hwritten⟩ := hw.written
  refine ⟨sent, hsent, fun chunks hchunks => ⟨sent.map Push.frame, ?_, ?_⟩⟩
  · have hframed : ∀ p ∈ sent, p.WellFramed := fun p hp =>
      h s p (hsent ▸ List.mem_append_left _ hp)
    rw [Push.drainEach_encode hframed (hchunks.trans hwritten), List.map_map]
    rfl
  · rw [List.map_map]
    exact List.map_congr_left fun p _ => Response.decode_frame p.response p.header

/-- What clients read of a run, and what it has to do with what they sent. -/
structure Legible (config : Config) (events : List Event) : Prop where
  /-- Whenever the writer of a session takes its turns, its client can read what it writes. -/
  reads : ∀ s (moments : List (Relay × Nat)),
    moments.map Prod.fst = Relay.moments { config } events →
      Reads (Relay.after { config } events) s (Writer.follow s {} { config } moments)
  /-- Every frame announces the true length of its body. -/
  bodyLength : ∀ s, ∀ p ∈ ((Relay.after { config } events).session s).outbox,
    p.frame.header.bodyLength.toNat = p.frame.body.length
  /-- A frame that comes next has answers to it queued and nothing else, -/
  answered : ∀ s data n frame, ((Relay.after { config } events).session s).running = true →
    ((Relay.after { config } events).pieces s data)[n]? = some (.frame frame) →
      Queued (Answers s frame) ((Relay.after { config } events).midway s data n)
        ((Relay.after { config } events).midway s data (n + 1))
  /-- bytes that are skipped have nothing queued, -/
  skipped : ∀ s data n m1 m2 version,
    ((Relay.after { config } events).session s).running = true →
    ((Relay.after { config } events).pieces s data)[n]? = some (.skip m1 m2 version) →
      Queued (fun _ _ => False) ((Relay.after { config } events).midway s data n)
        ((Relay.after { config } events).midway s data (n + 1))
  /-- and these are all pieces of the data that comes next. -/
  served : ∀ s data, ((Relay.after { config } events).session s).running = true →
    (Relay.after { config } events).step (.bytes s data) =
      (Relay.after { config } events).midway s data
        ((Relay.after { config } events).pieces s data).length
  /-- Nothing is read any more for a session that has ended. -/
  unread : ∀ s data, ((Relay.after { config } events).session s).running = false →
    (Relay.after { config } events).step (.bytes s data) = Relay.after { config } events
  /-- What does not come from clients has nothing queued but that channels are over. -/
  unasked : ∀ e : Event, (∀ s data, e ≠ .bytes s data) →
    Queued (fun _ p => ∃ id relay, p = stopPush id relay) (Relay.after { config } events)
      ((Relay.after { config } events).step e)

/-- Everything that a relay writes can be read, whatever its clients send. The events here
happen one after another, so nothing is queued for a session that has ended, and no frame is
dropped at a closed stream. -/
theorem legible_after (config : Config) (events : List Event) : Legible config events := by
  have hset := settled_after config events
  have hframed := framed_after config events
  refine ⟨fun s moments hmoments => ?_, fun s p hp => (hframed s p hp).frame.2, ?_, ?_,
    fun s data hrun => step_bytes hrun data, fun s data hover => step_bytes_of_ended hover data,
    fun e he => ?_⟩
  · have hchain := isChain_pushes { config } events
    rw [← hmoments] at hchain
    have hfollow := (Writer.inStep_init (r := { config }) s rfl).follow hchain
    have hlast := getLast_moments { config } events
    simp only [← hmoments] at hlast
    rw [hlast] at hfollow
    exact reads_of_inStep hframed hfollow
  · intro s data n frame hrun hpiece
    rw [midway_succ hset hrun hpiece]
    exact (queued_exec (servePiece_along (hset.midway hrun data n).2 frame)).mono
      fun _ _ h => h.1
  · intro s data n m1 m2 version hrun hpiece
    rw [midway_succ hset hrun hpiece]
    exact queued_exec (along_silent (servePiece_skip_silent m1 m2 version) _)
  · exact queued_exec (op_along _ e (fun _ id relay => ⟨id, relay, rfl⟩)
      fun s data hbytes => absurd hbytes (he s data))

end Relay

end PeerRelay
