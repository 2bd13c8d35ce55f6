import PeerRelay.Proofs.Relay.Outboxes
import PeerRelay.Relay.Writer

/-!
# Everything queued is written

The writer of a session takes its turns whenever it likes. At every moment it has written
the first of what it has taken in and has the rest in its queue. It does not close the stream
before everything that it has taken in is written, also when the session has ended. What is
queued after that is dropped. Nothing is, as long as nothing is queued for a session that has
ended; the writer is then in step with what is queued.
-/

namespace PeerRelay

open Relay (Appends Pushes)

variable {r r' : Relay} {s : SessionRef} {w : Writer} {taken : List Push}
  {Q : SessionRef → Push → Prop}

namespace Writer

/-- How far the writer of a session has come with what it has taken in. -/
structure Trails (s : SessionRef) (r : Relay) (taken : List Push) (w : Writer) : Prop where
  /-- A first part of it is written, and the rest is in the queue. -/
  written : ∃ sent, taken = sent ++ w.queue ∧ w.written = sent.flatMap Push.encode
  /-- What it has taken in is the first of what was queued for the session, -/
  queued : taken <+: (r.session s).outbox
  /-- and all of it as long as the stream is open. -/
  whole : w.closed = false → taken = (r.session s).outbox
  /-- It knows whether the session has ended, -/
  stopping : w.stopping = (s < r.sessions.length && !(r.session s).running)
  /-- and only then it closes the stream, with nothing left to write. -/
  closed : w.closed = true → w.queue = [] ∧ w.stopping = true

/-- The writer has taken in everything that was queued for its session. -/
def InStep (s : SessionRef) (r : Relay) (w : Writer) : Prop := Trails s r (r.session s).outbox w

/-- With nothing left to write for a session that has ended, the stream is closed. -/
theorem closed_turn (hqueue : w.queue = []) (hstopping : w.stopping = true) :
    w.turn.closed = true := by
  unfold turn
  split
  · assumption
  · rw [hqueue]
    exact hstopping

@[simp] theorem closed_watch (w : Writer) (s : SessionRef) (r r' : Relay) :
    (w.watch s r r').closed = w.closed := by
  unfold watch accept
  dsimp only
  split <;> split <;> rfl

@[simp] theorem written_watch (w : Writer) (s : SessionRef) (r r' : Relay) :
    (w.watch s r r').written = w.written := by
  unfold watch accept
  dsimp only
  split <;> split <;> rfl

theorem queue_watch (w : Writer) (s : SessionRef) (r r' : Relay) :
    (w.watch s r r').queue = if w.closed then w.queue
      else w.queue ++ (r'.session s).outbox.drop (r.session s).outbox.length := by
  unfold watch accept
  dsimp only
  split <;> split <;> rfl

theorem stopping_watch (w : Writer) (s : SessionRef) (r r' : Relay) :
    (w.watch s r r').stopping =
      (w.stopping || (s < r'.sessions.length && !(r'.session s).running)) := by
  unfold watch
  dsimp only
  split
  · rename_i hover
    rw [hover, Bool.or_true]
    rfl
  · rename_i hon
    rw [Bool.eq_false_iff.mpr hon, Bool.or_false, accept]
    split <;> rfl

namespace Trails

theorem turn (h : Trails s r taken w) : Trails s r taken w.turn := by
  unfold Writer.turn
  split
  · exact h
  · rename_i hopen
    obtain ⟨sent, hsent, hwritten⟩ := h.written
    split
    · rename_i p rest hqueue
      rw [hqueue] at hsent
      refine ⟨⟨sent ++ [p], ?_, ?_⟩, h.queued, h.whole, h.stopping,
        fun hclosed => absurd hclosed hopen⟩
      · rw [hsent, List.append_assoc, List.singleton_append]
      · rw [hwritten, List.flatMap_append, List.flatMap_singleton]
    · rename_i hqueue
      exact ⟨⟨sent, hsent, hwritten⟩, h.queued, fun _ => h.whole (Bool.eq_false_iff.mpr hopen),
        h.stopping, fun hclosed => ⟨hqueue, hclosed⟩⟩

theorem turns (h : Trails s r taken w) (n : Nat) : Trails s r taken (n.repeat Writer.turn w) := by
  induction n with
  | zero => exact h
  | succ n ih => exact ih.turn

/-- The stream of a session that runs is open. -/
theorem not_closed (h : Trails s r taken w) (hrun : (r.session s).running = true) :
    w.closed = false := by
  refine Bool.eq_false_iff.mpr fun hclosed => ?_
  have hstopping := (h.closed hclosed).2
  rw [h.stopping, hrun, Bool.not_true, Bool.and_false] at hstopping
  cases hstopping

theorem ended (h : Trails s r taken w) (hclosed : w.closed = true) :
    s < r.sessions.length ∧ (r.session s).running = false := by
  have hstopping := (h.closed hclosed).2
  rwa [h.stopping, Bool.and_eq_true, decide_eq_true_eq, Bool.not_eq_true'] at hstopping

/-- After a step the writer has taken in what was queued, unless the stream is closed. -/
theorem watch (h : Trails s r taken w) (hstep : Appends r r') :
    Trails s r' (if w.closed then taken else (r'.session s).outbox) (w.watch s r r') := by
  obtain ⟨sent, hsent, hwritten⟩ := h.written
  obtain ⟨new, hnew⟩ := hstep.outbox s
  have hqueue : (w.watch s r r').queue = if w.closed then w.queue else w.queue ++ new := by
    rw [queue_watch, ← hnew, List.drop_left]
  refine ⟨⟨sent, ?taken, by rw [written_watch, hwritten]⟩, ?queued, fun hopen => ?whole, ?stopping,
    fun hclosed => ?closed⟩
  case taken =>
    rw [hqueue]
    split
    · exact hsent
    · rename_i hopen
      rw [← hnew, ← h.whole (Bool.eq_false_iff.mpr hopen), hsent, List.append_assoc]
  case queued =>
    split
    · exact h.queued.trans (hstep.outbox s)
    · exact List.prefix_rfl
  case whole =>
    rw [closed_watch] at hopen
    rw [hopen, if_neg Bool.false_ne_true]
  case stopping =>
    rw [stopping_watch, h.stopping, Bool.or_eq_right_iff_imp, Bool.and_eq_true,
      decide_eq_true_eq, Bool.not_eq_true']
    rintro ⟨hs, hover⟩
    obtain ⟨hs', hover'⟩ := hstep.ended hs hover
    rw [decide_eq_true hs', hover']
    rfl
  case closed =>
    rw [closed_watch] at hclosed
    rw [hqueue, if_pos hclosed, stopping_watch, (h.closed hclosed).2]
    exact ⟨(h.closed hclosed).1, rfl⟩

/-- Every turn takes the oldest frame off the queue. -/
theorem queue_turn (h : Trails s r taken w) : w.turn.queue = w.queue.tail := by
  unfold Writer.turn
  split
  · rename_i hclosed
    rw [(h.closed hclosed).1, List.tail_nil]
  · split
    · rename_i p rest hqueue
      rw [hqueue, List.tail_cons]
    · rename_i hqueue
      rw [hqueue, List.tail_nil]

theorem queue_turns (h : Trails s r taken w) (n : Nat) :
    (n.repeat Writer.turn w).queue = w.queue.drop n := by
  induction n with
  | zero => rfl
  | succ n ih =>
      have hnext := (h.turns n).queue_turn
      rw [ih, List.tail_drop] at hnext
      exact hnext

/-- In as many turns as frames are waiting, everything that was taken in is written. -/
theorem finished (h : Trails s r taken w) :
    (w.queue.length.repeat Writer.turn w).queue = [] ∧
      (w.queue.length.repeat Writer.turn w).written = taken.flatMap Push.encode := by
  have hempty : (w.queue.length.repeat Writer.turn w).queue = [] := by
    rw [h.queue_turns, List.drop_length]
  obtain ⟨sent, hsent, hwritten⟩ := (h.turns w.queue.length).written
  rw [hempty, List.append_nil] at hsent
  exact ⟨hempty, by rw [hwritten, hsent]⟩

/-- If the session has ended, the stream is closed in the turn after all that waits. -/
theorem closed_of_ended (h : Trails s r taken w) (hs : s < r.sessions.length)
    (hover : (r.session s).running = false) :
    ((w.queue.length + 1).repeat Writer.turn w).closed = true := by
  refine closed_turn h.finished.1 ?_
  rw [(h.turns w.queue.length).stopping, hover, decide_eq_true hs]
  rfl

end Trails

/-- What holds of the writer across every step of the relay, and across every turn of its own,
holds at the end of a run. -/
theorem follow_keeps {R : Relay → Relay → Prop} {I : Relay → Writer → Prop}
    (hwatch : ∀ r r' w, R r r' → I r w → I r' (w.watch s r r')) (hturn : ∀ r w, I r w → I r w.turn)
    (h : I r w) {moments : List (Relay × Nat)} (hsteps : (r :: moments.map Prod.fst).IsChain R) :
    I ((r :: moments.map Prod.fst).getLast (List.cons_ne_nil _ _)) (w.follow s r moments) := by
  have hturns (r : Relay) (w : Writer) (n : Nat) (h : I r w) : I r (n.repeat Writer.turn w) := by
    induction n with
    | zero => exact h
    | succ n ih => exact hturn r _ ih
  induction moments generalizing r w with
  | nil => exact h
  | cons m moments ih =>
      obtain ⟨hstep, hrest⟩ := List.isChain_cons_cons.mp hsteps
      exact ih (hturns _ _ m.2 (hwatch _ _ _ hstep h)) hrest

/-- What the writer has taken in stays the first of it over a whole run, whatever is queued and
whenever the writer takes its turns. -/
theorem Trails.follow (h : Trails s r taken w) {moments : List (Relay × Nat)}
    (hsteps : (r :: moments.map Prod.fst).IsChain Appends) :
    ∃ more, Trails s ((r :: moments.map Prod.fst).getLast (List.cons_ne_nil _ _)) (taken ++ more)
      (w.follow s r moments) := by
  refine follow_keeps (I := fun r w => ∃ more, Trails s r (taken ++ more) w) ?_ ?_
    ⟨[], by rwa [List.append_nil]⟩ hsteps
  · rintro r r' w hstep ⟨more, h⟩
    have hwatch := h.watch hstep
    split at hwatch
    · exact ⟨more, hwatch⟩
    · obtain ⟨new, hnew⟩ := h.queued.trans (hstep.outbox s)
      rw [← hnew, List.append_assoc] at hwatch
      exact ⟨more ++ new, hwatch⟩
  · rintro r w ⟨more, h⟩
    exact ⟨more, h.turn⟩

namespace InStep

/-- What is queued for sessions that run is not dropped. -/
theorem watch (h : InStep s r w) (hstep : Pushes Q r r') : InStep s r' (w.watch s r r') := by
  have hwatch := Trails.watch h hstep.appends
  split at hwatch
  · rename_i hclosed
    obtain ⟨new, hnew, hkind⟩ := hstep.outbox s
    have hnone : new = [] := List.eq_nil_iff_forall_not_mem.mpr fun p hp => by
      cases (h.not_closed (hkind p hp).1).symm.trans hclosed
    rw [hnone, List.append_nil] at hnew
    rwa [← hnew] at hwatch
  · exact hwatch

/-- The writer stays in step with the relay over a whole run, whenever it takes its turns. -/
theorem follow (h : InStep s r w) {moments : List (Relay × Nat)}
    (hsteps : (r :: moments.map Prod.fst).IsChain (Pushes Q)) :
    InStep s ((r :: moments.map Prod.fst).getLast (List.cons_ne_nil _ _))
      (w.follow s r moments) :=
  follow_keeps (I := InStep s) (fun _ _ _ hstep h => h.watch hstep) (fun _ _ => Trails.turn) h
    hsteps

end InStep

/-- At the beginning nothing is queued. -/
theorem inStep_init (s : SessionRef) {r : Relay} (h : r.sessions = []) : InStep s r {} := by
  have hvacant : r.session s = .vacant := Relay.session_of_le (by rw [h]; exact Nat.zero_le s)
  have houtbox : (r.session s).outbox = [] := by
    rw [hvacant]
    rfl
  rw [InStep, houtbox]
  refine ⟨⟨[], rfl, rfl⟩, List.nil_prefix, fun _ => houtbox.symm, ?_, nofun⟩
  rw [h]
  rfl

end Writer

end PeerRelay
