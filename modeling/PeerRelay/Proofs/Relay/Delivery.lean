import PeerRelay.Proofs.Pool
import PeerRelay.Proofs.Relay.Calls
import PeerRelay.Proofs.Relay.Writing

/-!
# What is delivered while calls overlap

As long as events happen one after another, nothing is queued for a session that has ended,
and all that is queued is written. While calls overlap that need not be so: between the look at
a session and the push to it, another call may end the session and its writer may close the
stream. Here is what holds under every schedule. What is queued is written in its order; what
is dropped came last, when the stream was closed; and everything that was queued at a moment
when the session ran is written.
-/

namespace PeerRelay.Relay

open Steps

variable {r r' earlier : Relay} {s : SessionRef} {w : Writer}

/-! ## Every step appends -/

theorem each_appends {α : Type} {p : Op α} (h : p.Each Silent) : p.Each Appends :=
  h.mono fun _ _ => Silent.appends

theorem push_appends (s : SessionRef) (header : Wire.Header) (response : Response) :
    (push s header response).Each Appends :=
  each_modify fun r => .modifySession r s (fun _ => id) fun _ => List.prefix_append ..

theorem stopChannel_appends (c : ChannelRef) : (stopChannel c).Each Appends :=
  composed_each.stopChannel (each_appends (claimStop_silent c))
    (composed_each.tearDown
      (fun _ _ _ => composed_each.closeEnd (each_appends (leave_silent ..))
        (each_appends (forgetChannel_silent _)) (composed_each.notifyStop (push_appends ..)))
      (each_appends (retireChannel_silent c)) (each_appends (countClosed_silent c)))

theorem createChannel_appends (src : SessionRef) (id : SessionId) :
    (createChannel src id).Each Appends :=
  composed_each.createChannel (each_appends reserveSlot_silent) (each_appends releaseSlot_silent)
    (fun _ _ => each_appends (openChannel_silent ..))
    (fun _ _ => each_appends (listChannel_silent ..))
    (fun _ => each_appends (joinSessions_silent _))
    (fun _ => each_appends (forgetChannel_silent _)) stopChannel_appends id

theorem stopSession_appends (s : SessionRef) : (stopSession s).Each Appends := by
  have hclaim : (claimEnd s).Each Appends :=
    each_atomic fun r => .modifySession r s (fun _ => nofun) fun _ => List.prefix_rfl
  have hdiscard : ∀ c, (discardChannel c).Each Appends :=
    composed_each.discardChannel (fun _ => each_appends (forgetChannel_silent _))
      stopChannel_appends
  exact composed_each.stopSession hclaim (each_appends (each_modify fun _ => .of_sessions rfl))
    (composed_each.stopChannels (fun _ _ => each_appends (takeChannels_silent ..)) hdiscard
      stopChannel_appends s)
    (each_appends (dismiss_silent s)) (each_appends (detach_silent s))

theorem serveLogin_appends (s : SessionRef) (header : Wire.Header) (guid : Guid)
    (privateAddr : Ipv4) : (serveLogin s header guid privateAddr).Each Appends := by
  have hmodify {f : Session → Session} (hf : ∀ x, (f x).running = x.running)
      (ho : ∀ x, (f x).outbox = x.outbox) :
      (Steps.modify fun r : Relay => r.modifySession s f).Each Appends :=
    each_appends (each_modify fun r => .modifySession r s hf ho)
  exact composed_each.serveLogin (push_appends s header) (fun _ => each_appends (logIn_silent ..))
    (fun _ _ _ => hmodify (fun _ => rfl) fun _ => rfl) (hmodify (fun _ => rfl) fun _ => rfl)
    (each_appends (each_modify fun _ => .of_sessions rfl)) (each_appends (dismiss_silent s))
    guid privateAddr

theorem serveFrame_appends (s : SessionRef) (frame : Wire.Frame) :
    (serveFrame s frame).Each Appends :=
  composed_each.serveFrame serveLogin_appends
    (composed_each.serveProxy push_appends createChannel_appends
      fun c => each_appends (startChannel_silent c))
    (fun s header => composed_each.read fun _ => push_appends s header _)
    (fun s header => composed_each.refuseMalformed (push_appends s header)) s frame

theorem receive_appends (s : SessionRef) (data : Bytes) : (receive s data).Each Appends :=
  composed_each.receive (fun unread => each_modify fun r => (unread_silent r s unread).appends)
    (serveFrame_appends s) (each_appends (each_modify fun _ => .of_sessions rfl)) data

theorem event_appends (e : Event) : e.op.Each Appends :=
  composed_each.event stopChannel_appends stopSession_appends
    (fun c => each_appends (report_silent c))
    (fun _ => each_appends (each_modify fun _ => .of_sessions rfl))
    (each_appends (each_modify fun _ => .of_sessions rfl))
    (composed_each.arrival (each_appends reserveConnection_silent)
      (fun _ _ _ _ => each_appends (startSession_silent ..))
      (each_appends releaseConnection_silent) (fun s data _ => receive_appends s data)
      fun _ _ _ _ _ => each_appends (datagram_silent ..))

/-- Whatever is asked of a relay, and whatever gets in between, frames are only ever queued
behind those that are queued already, and no session that has ended comes back. -/
theorem call_appends (call : Call) : call.op.Each Appends :=
  composed_each.call (fun e _ => event_appends e) createChannel_appends stopChannel_appends

/-! ## What becomes of the frames -/

/-- How far the writer of a session has come with what was queued at an earlier moment and
since. -/
structure Delivered (earlier r : Relay) (s : SessionRef) (w : Writer) : Prop where
  /-- What is written is the first of what was queued, frame by frame, and what waits comes
  next. Only what follows that is dropped, and nothing is as long as the stream is open. -/
  parted : ∃ sent dropped, (r.session s).outbox = sent ++ w.queue ++ dropped ∧
    w.written = sent.flatMap Push.encode ∧ (w.closed = false → dropped = [])
  /-- The stream is closed only when nothing waits and the session has ended, -/
  closed : w.closed = true →
    w.queue = [] ∧ s < r.sessions.length ∧ (r.session s).running = false
  /-- and if the session has ended it is closed in the turn after all that waits. -/
  ended : s < r.sessions.length → (r.session s).running = false →
    ((w.queue.length + 1).repeat Writer.turn w).closed = true
  /-- If the session ran at the earlier moment, everything that was queued by then is written
  in as many turns as there are frames waiting. -/
  kept : (earlier.session s).running = true →
    (earlier.session s).written <+: (w.queue.length.repeat Writer.turn w).written

theorem delivered_of_trails {taken more : List Push} (h : w.Trails s r (taken ++ more))
    (hkept : (earlier.session s).running = true → taken = (earlier.session s).outbox) :
    Delivered earlier r s w := by
  constructor
  case parted =>
    obtain ⟨sent, hsent, hwritten⟩ := h.written
    obtain ⟨dropped, hdropped⟩ := h.queued
    refine ⟨sent, dropped, by rw [← hdropped, hsent], hwritten, fun hopen => ?_⟩
    rw [← h.whole hopen] at hdropped
    exact List.append_right_eq_self.mp hdropped
  case closed => exact fun hclosed => ⟨(h.closed hclosed).1, h.ended hclosed⟩
  case ended => exact h.closed_of_ended
  case kept =>
    intro hrun
    rw [h.finished.2, List.flatMap_append, hkept hrun]
    exact List.prefix_append ..

/-- What the writer has taken in stays the first of it over any schedule. -/
theorem trails_play {p : Pool Relay Answer} {taken : List Push} (h : p.Each Appends)
    (hw : w.Trails s p.state taken) {turns : List Nat} {moments : List (Relay × Nat)}
    (hmoments : moments.map Prod.fst = p.states turns) :
    ∃ more, (w.follow s p.state moments).Trails s (p.play turns).state (taken ++ more) := by
  have hchain := h.isChain_states turns
  have hlast := p.getLast_states turns
  rw [← hmoments] at hchain
  simp only [← hmoments] at hlast
  rw [← hlast]
  exact hw.follow hchain

/-- What is queued by a moment between is kept over the rest of a schedule. -/
theorem delivered_of_each {p : Pool Relay Answer} (h : p.Each Appends) (hw : w.InStep s p.state)
    {before after : List Nat} {early late : List (Relay × Nat)}
    (hearly : early.map Prod.fst = p.states before)
    (hlate : late.map Prod.fst = (p.play before).states after) :
    Delivered (p.play before).state (p.play (before ++ after)).state s
      ((w.follow s p.state early).follow s (p.play before).state late) := by
  obtain ⟨since, htrails⟩ := trails_play h hw hearly
  obtain ⟨more, hend⟩ := trails_play (h.play before) htrails hlate
  rw [← Pool.play_append] at hend
  -- While the session runs the stream is open, so nothing that was queued by then is missing.
  exact delivered_of_trails hend fun hrun => htrails.whole (htrails.not_closed hrun)

/-- Whatever is asked of a relay from however many sides, whoever has which turn, and whenever
the writer of a session takes its own: what was queued at a moment when the session ran is
written, and all that is written is what was queued, in its order. -/
theorem delivered_play (config : Config) (calls : List Call) (s : SessionRef)
    (before after : List Nat) (early late : List (Relay × Nat))
    (hearly : early.map Prod.fst =
      (Pool.start { config } (calls.map Call.op)).states before)
    (hlate : late.map Prod.fst =
      ((Pool.start { config } (calls.map Call.op)).play before).states after) :
    Delivered ((Pool.start { config } (calls.map Call.op)).play before).state
      ((Pool.start { config } (calls.map Call.op)).play (before ++ after)).state s
      ((Writer.follow s {} { config } early).follow s
        ((Pool.start { config } (calls.map Call.op)).play before).state late) := by
  refine delivered_of_each (Pool.each_start fun op hop => ?_) (Writer.inStep_init s rfl) hearly
    hlate
  obtain ⟨call, -, rfl⟩ := List.mem_map.mp hop
  exact call_appends call

/-- A client asks for the peer table and is gone when the reply is queued: its writer has closed
the stream, and the reply is dropped. -/
example :
    let calls : List Call :=
      [.event (.connect .client ⟨.v4 ⟨192, 0, 2, 1⟩, 4001, 0⟩ ⟨.v4 .unspecified, 8801, 0⟩),
        .event (.bytes 0 (Request.encode (.getPeers 0))), .event (.disconnect 0)]
    let start := Pool.start {} (calls.map Call.op)
    let turns := List.replicate 20 0 ++ List.replicate 3 1 ++ List.replicate 20 2 ++ [1]
    let w := Writer.follow 0 {} {} ((start.states turns).map (·, 1))
    ((start.play turns).state.session 0).outbox.length = 1 ∧ w.closed = true ∧
      w.queue = [] ∧ w.written = [] := by decide +kernel

end PeerRelay.Relay
