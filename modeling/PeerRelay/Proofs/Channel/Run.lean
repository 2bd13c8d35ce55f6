import PeerRelay.Proofs.Channel.Terms

/-!
# Runs of a channel

Everything that can happen to a channel, one thing after another and in any
order: datagrams at either end, the start, the watchdog's checks, the two halves
of a stop. What each of them does to an end is told by how far the end is.
-/

namespace PeerRelay

theorem Side.eq_or_eq_other (s side : Side) : s = side ∨ s = side.other := by
  cases s <;> cases side <;> simp [Side.other]

theorem Side.other_ne (side : Side) : side.other ≠ side := by
  cases side <;> simp [Side.other]

namespace Channel

/-- What can happen to a channel. Instants are in nanoseconds. -/
inductive Event where
  | start
  /-- A datagram arrives at the socket of an end. -/
  | datagram (side : Side) (now : Nat) (sender : SocketAddr) (data : Bytes)
  /-- What has waited at an end is handed out, to arrive again. -/
  | takeWaiting (side : Side)
  /-- The watchdog checks for silent peers and stops the channel if there is one. -/
  | poll (now : Nat)
  | tick (now : Nat)
  /-- The channel is stopped. Its loops may still have a datagram at hand. -/
  | stop
  /-- The loop of an end is over. -/
  | retire (side : Side)

/-- The channel after something happened. -/
def step (c : Channel) : Event → Channel
  | .start => c.start
  | .datagram side now sender data => (c.receive side now sender data).1
  | .takeWaiting side => (c.takeWaiting side).2
  | .poll now => if c.started && !c.stopped && c.isExpired now then c.halt else c
  | .tick now => c.tick now
  | .stop => c.halt
  | .retire side => c.retire side

/-- The channel after a run. -/
def after (c : Channel) (events : List Event) : Channel := events.foldl step c

@[simp] theorem after_nil (c : Channel) : c.after [] = c := rfl

@[simp] theorem after_cons (c : Channel) (e : Event) (events : List Event) :
    c.after (e :: events) = (c.step e).after events := rfl

theorem after_append (c : Channel) (events more : List Event) :
    c.after (events ++ more) = (c.after events).after more :=
  List.foldl_append

theorem after_snoc (c : Channel) (events : List Event) (e : Event) :
    c.after (events ++ [e]) = (c.after events).step e :=
  after_append c events [e]

theorem terms_step (c : Channel) (e : Event) : (c.step e).terms = c.terms := by
  cases e with
  | start => exact terms_start c
  | datagram side now sender data => exact (receive_keeps c side now sender data).1
  | takeWaiting side => exact terms_takeWaiting c side
  | poll now =>
      simp only [step]
      split
      · exact terms_halt c
      · rfl
  | tick now => rfl
  | stop => exact terms_halt c
  | retire side => exact terms_retire c side

theorem terms_after (c : Channel) (events : List Event) : (c.after events).terms = c.terms := by
  induction events generalizing c with
  | nil => rfl
  | cons e events ih => exact (ih _).trans (terms_step c e)

theorem config_after (c : Channel) (events : List Event) : (c.after events).config = c.config :=
  congrArg Terms.config (terms_after c events)

theorem stopped_step {c : Channel} (h : c.stopped = true) (e : Event) :
    (c.step e).stopped = true := by
  cases e with
  | start => exact (stopped_start c).trans h
  | datagram side now sender data => exact (receive_keeps c side now sender data).2.trans h
  | takeWaiting side => exact (stopped_modify ..).trans h
  | poll now =>
      simp only [step]
      split
      · rfl
      · exact h
  | tick now => exact h
  | stop => rfl
  | retire side => exact (stopped_modify ..).trans h

/-- A channel is another one after some run. -/
def Ran (c d : Channel) : Prop := ∃ events, d = c.after events

namespace Ran

variable {c d e : Channel}

theorem refl (c : Channel) : Ran c c := ⟨[], rfl⟩

theorem trans (h : Ran c d) (h' : Ran d e) : Ran c e := by
  obtain ⟨events, rfl⟩ := h
  obtain ⟨more, rfl⟩ := h'
  exact ⟨events ++ more, (after_append c events more).symm⟩

theorem step (c : Channel) (e : Event) : Ran c (c.step e) := ⟨[e], rfl⟩

theorem terms_eq (h : Ran c d) : d.terms = c.terms := by
  obtain ⟨events, rfl⟩ := h
  exact terms_after c events

theorem stopped (h : Ran c d) (hs : c.stopped = true) : d.stopped = true := by
  obtain ⟨events, rfl⟩ := h
  induction events generalizing c with
  | nil => exact hs
  | cons e events ih => exact ih (stopped_step hs e)

end Ran

/-! ## How far an end is -/

/-- How far an end is: whether it is open, where its peer is, and what it does with what
arrives. -/
structure Standing where
  opened : Bool
  remote : SocketAddr
  loop : Loop

def standing (c : Channel) (side : Side) : Standing :=
  ⟨(c.endpoint side).opened, (c.endpoint side).remote, (c.endpoint side).loop⟩

/-- What can become of a datagram at an end, and how far the end is then. -/
inductive Taken (c : Channel) (side : Side) (sender : SocketAddr) (data : Bytes) :
    Standing → Outcome → Prop where
  | waits (hloop : (c.standing side).loop = .idle) :
      Taken c side sender data (c.standing side) .ignored
  | unread (hloop : (c.standing side).loop = .ended) :
      Taken c side sender data (c.standing side) .ignored
  | accepted (hloop : (c.standing side).loop = .authenticating)
      (haccepts : c.accepts side data = true) :
      Taken c side sender data ⟨true, sender, .relaying⟩ (.echoed data)
  | answered (hloop : (c.standing side).loop = .authenticating) {outcome : Outcome}
      (houtcome : outcome = .ignored ∨ ∃ reply, outcome = .echoed reply) :
      Taken c side sender data (c.standing side) outcome
  | foreign (hloop : (c.standing side).loop = .relaying)
      (hip : sender.ip ≠ (c.standing side).remote.ip) :
      Taken c side sender data (c.standing side) .dropped
  | followed (hloop : (c.standing side).loop = .relaying)
      (hip : sender.ip = (c.standing side).remote.ip) {loop : Loop}
      (hafter : loop = .relaying ∨ loop = .ended) {outcome : Outcome}
      (houtcome : outcome = .ignored ∨ outcome = .dropped) :
      Taken c side sender data ⟨(c.standing side).opened, sender, loop⟩ outcome
  | passed (hloop : (c.standing side).loop = .relaying)
      (hip : sender.ip = (c.standing side).remote.ip)
      (hpeer : (c.standing side.other).opened = true) :
      Taken c side sender data ⟨(c.standing side).opened, sender, .relaying⟩
        (.forwarded (c.standing side.other).remote data)

theorem standing_modify (c : Channel) (side : Side) (f : Endpoint → Endpoint) :
    (c.modify side f).standing side =
      ⟨(f (c.endpoint side)).opened, (f (c.endpoint side)).remote,
        (f (c.endpoint side)).loop⟩ := by
  rw [standing, endpoint_modify_same]

theorem standing_modify_other (c : Channel) (side : Side) (f : Endpoint → Endpoint) :
    (c.modify side f).standing side.other = c.standing side.other := by
  rw [standing, endpoint_modify_other, standing]

@[simp] theorem standing_touch (c : Channel) (side s : Side) (now : Nat) :
    (c.touch side now).standing s = c.standing s := by
  rcases Side.eq_or_eq_other s side with rfl | rfl
  · exact standing_modify ..
  · exact standing_modify_other ..

theorem endpoint_count (c : Channel) (side s : Side) (bytes : Nat) :
    (c.count side bytes).endpoint s = c.endpoint s := by
  cases side <;> cases s <;> rfl

@[simp] theorem standing_count (c : Channel) (side s : Side) (bytes : Nat) :
    (c.count side bytes).standing s = c.standing s := by
  cases side <;> cases s <;> rfl

theorem Taken.of_eq {c : Channel} {side : Side} {sender : SocketAddr} {data : Bytes}
    {st st' : Standing} {outcome outcome' : Outcome} (h : Taken c side sender data st outcome)
    (hst : st' = st) (houtcome : outcome' = outcome) :
    Taken c side sender data st' outcome' := by
  subst hst houtcome
  exact h

theorem taken_authenticate (c : Channel) (side : Side) (now : Nat) (sender : SocketAddr)
    (data : Bytes) (hloop : (c.standing side).loop = .authenticating) :
    Taken c side sender data ((c.authenticate side now sender data).1.standing side)
      (c.authenticate side now sender data).2 := by
  have haccepts : (c.touch side now).accepts side data = c.accepts side data := by
    cases side <;> rfl
  unfold authenticate
  dsimp only
  rw [haccepts]
  split
  · exact (Taken.answered hloop (.inl rfl)).of_eq (standing_touch ..) rfl
  · split
    · rename_i hacc
      exact (Taken.accepted hloop hacc).of_eq (standing_modify ..) rfl
    · exact (Taken.answered hloop (.inr ⟨_, rfl⟩)).of_eq (standing_touch ..) rfl

theorem taken_relay (c : Channel) (side : Side) (now : Nat) (sender : SocketAddr)
    (data : Bytes) (hloop : (c.standing side).loop = .relaying) :
    Taken c side sender data ((c.relay side now sender data).1.standing side)
      (c.relay side now sender data).2 := by
  have hmoved : ((c.modify side fun e => { e with remote := sender }).touch side now).standing
      side = ⟨(c.standing side).opened, sender, .relaying⟩ := by
    rw [standing_touch, standing_modify, ← hloop]
    rfl
  have hpeer : ((c.modify side fun e => { e with remote := sender }).touch side now).standing
      side.other = c.standing side.other := by
    rw [standing_touch, standing_modify_other]
  have hopened := congrArg Standing.opened hpeer
  have hremote := congrArg Standing.remote hpeer
  unfold relay
  dsimp only
  split
  · rename_i hip
    exact .foreign hloop hip
  · rename_i hip
    have hip := Decidable.not_not.mp hip
    split
    · exact (Taken.followed hloop hip (.inl rfl) (.inl rfl)).of_eq hmoved rfl
    · split
      · exact (Taken.followed hloop hip (.inl rfl) (.inr rfl)).of_eq hmoved rfl
      · rename_i hopen
        split
        · refine (Taken.followed hloop hip (.inr rfl) (.inl rfl)).of_eq ?_ rfl
          rw [standing_modify]
          exact congrArg (fun st => Standing.mk st.opened st.remote .ended) hmoved
        · refine (Taken.passed hloop hip ?_).of_eq ((standing_count ..).trans hmoved) ?_
          · rw [Bool.not_eq_true', Bool.not_eq_false] at hopen
            exact hopened.symm.trans hopen
          · exact congrArg (Outcome.forwarded · data) hremote

/-- What becomes of a datagram is one of these. -/
theorem taken_receive (c : Channel) (side : Side) (now : Nat) (sender : SocketAddr)
    (data : Bytes) :
    Taken c side sender (data.take c.config.mtu)
      ((c.receive side now sender data).1.standing side) (c.receive side now sender data).2 := by
  unfold receive
  dsimp only
  split
  · rename_i hloop
    refine (Taken.waits hloop).of_eq ((standing_modify ..).trans ?_) rfl
    split <;> rfl
  · exact taken_authenticate _ _ _ _ _ ‹_›
  · exact taken_relay _ _ _ _ _ ‹_›
  · exact .unread ‹_›

/-- A datagram leaves the other end as it was. -/
theorem endpoint_receive_other (c : Channel) (side : Side) (now : Nat) (sender : SocketAddr)
    (data : Bytes) :
    (c.receive side now sender data).1.endpoint side.other = c.endpoint side.other := by
  have htouch (d : Channel) : (d.touch side now).endpoint side.other = d.endpoint side.other :=
    endpoint_modify_other ..
  unfold receive
  dsimp only
  split
  · exact endpoint_modify_other ..
  · unfold authenticate
    dsimp only
    split
    · exact htouch c
    · split
      · exact (endpoint_modify_other ..).trans (htouch c)
      · exact htouch c
  · have hmoved : ((c.modify side fun e => { e with remote := sender }).touch side now).endpoint
        side.other = c.endpoint side.other := (htouch _).trans (endpoint_modify_other ..)
    unfold relay
    dsimp only
    split
    · rfl
    · split
      · exact hmoved
      · split
        · exact hmoved
        · split
          · exact (endpoint_modify_other ..).trans hmoved
          · exact (endpoint_count ..).trans hmoved
  · rfl

theorem standing_receive_other (c : Channel) (side : Side) (now : Nat) (sender : SocketAddr)
    (data : Bytes) :
    (c.receive side now sender data).1.standing side.other = c.standing side.other := by
  rw [standing, endpoint_receive_other, standing]

/-! ## What else moves an end -/

@[simp] theorem standing_halt (c : Channel) (s : Side) : c.halt.standing s = c.standing s := by
  cases s <;> rfl

@[simp] theorem standing_tick (c : Channel) (s : Side) (now : Nat) :
    (c.tick now).standing s = c.standing s := by
  cases s <;> rfl

@[simp] theorem standing_takeWaiting (c : Channel) (side s : Side) :
    (c.takeWaiting side).2.standing s = c.standing s := by
  cases side <;> cases s <;> rfl

theorem standing_start (c : Channel) (s : Side) :
    c.start.standing s =
      if c.stopped || c.started then c.standing s
      else { c.standing s with loop := .authenticating } := by
  unfold start
  split
  · rfl
  · cases s <;> rfl

theorem standing_retire (c : Channel) (side s : Side) :
    (c.retire side).standing s =
      if s = side then { c.standing s with loop := .ended } else c.standing s := by
  cases side <;> cases s <;> rfl

theorem standing_poll (c : Channel) (now : Nat) (s : Side) :
    (c.step (.poll now)).standing s = c.standing s := by
  simp only [step]
  split
  · exact standing_halt c s
  · rfl

@[simp] theorem started_modify (c : Channel) (side : Side) (f : Endpoint → Endpoint) :
    (c.modify side f).started = c.started := by
  cases side <;> rfl

@[simp] theorem started_touch (c : Channel) (side : Side) (now : Nat) :
    (c.touch side now).started = c.started :=
  started_modify ..

@[simp] theorem started_count (c : Channel) (side : Side) (bytes : Nat) :
    (c.count side bytes).started = c.started := by
  cases side <;> rfl

theorem started_receive (c : Channel) (side : Side) (now : Nat) (sender : SocketAddr)
    (data : Bytes) : (c.receive side now sender data).1.started = c.started := by
  unfold receive
  dsimp only
  split
  · exact started_modify ..
  · unfold authenticate
    dsimp only
    split
    · exact started_touch ..
    · split <;> simp
  · unfold relay
    dsimp only
    split
    · rfl
    · split
      · simp
      · split
        · simp
        · split <;> simp
  · rfl

/-- How an end gets from before to after something that happens to the channel. -/
inductive Advanced (c d : Channel) (s : Side) : Prop where
  | stays (h : d.standing s = c.standing s)
  | starts (hnew : c.started = false) (hstarted : d.started = true)
      (h : d.standing s = { c.standing s with loop := .authenticating })
  | opens (hloop : (c.standing s).loop = .authenticating) {data : Bytes}
      (haccepts : c.accepts s data = true) {sender : SocketAddr}
      (h : d.standing s = ⟨true, sender, .relaying⟩)
  | follows (hloop : (c.standing s).loop = .relaying) {sender : SocketAddr}
      (hip : sender.ip = (c.standing s).remote.ip) {loop : Loop}
      (hafter : loop = .relaying ∨ loop = .ended)
      (h : d.standing s = ⟨(c.standing s).opened, sender, loop⟩)
  | ends (h : d.standing s = { c.standing s with loop := .ended })

theorem Taken.advanced {c d : Channel} {side : Side} {sender : SocketAddr} {data : Bytes}
    {outcome : Outcome} (h : Taken c side sender data (d.standing side) outcome) :
    Advanced c d side := by
  generalize hst : d.standing side = st at h
  cases h with
  | waits hloop => exact .stays hst
  | unread hloop => exact .stays hst
  | accepted hloop haccepts => exact .opens hloop haccepts hst
  | answered hloop houtcome => exact .stays hst
  | foreign hloop hip => exact .stays hst
  | followed hloop hip hafter houtcome => exact .follows hloop hip hafter hst
  | passed hloop hip hpeer => exact .follows hloop hip (.inl rfl) hst

/-- Nothing else happens to an end. -/
theorem advanced_step (c : Channel) (e : Event) (s : Side) : Advanced c (c.step e) s := by
  cases e with
  | start =>
      by_cases hearly : (c.stopped || c.started) = true
      · exact .stays ((standing_start c s).trans (if_pos hearly))
      · have hnew : c.started = false := by
          rw [Bool.or_eq_true, not_or] at hearly
          exact Bool.eq_false_iff.mpr hearly.2
        refine .starts hnew ?_ ((standing_start c s).trans (if_neg hearly))
        show c.start.started = true
        unfold start
        rw [if_neg hearly]
  | datagram side now sender data =>
      rcases Side.eq_or_eq_other s side with rfl | rfl
      · exact (taken_receive c s now sender data).advanced
      · exact .stays (standing_receive_other c side now sender data)
  | takeWaiting side => exact .stays (standing_takeWaiting c side s)
  | poll now => exact .stays (standing_poll c now s)
  | tick now => exact .stays (standing_tick c s now)
  | stop => exact .stays (standing_halt c s)
  | retire side =>
      by_cases hs : s = side
      · exact .ends ((standing_retire c side s).trans (if_pos hs))
      · exact .stays ((standing_retire c side s).trans (if_neg hs))

theorem started_step {c : Channel} (h : c.started = true) (e : Event) :
    (c.step e).started = true := by
  cases e with
  | start =>
      show c.start.started = true
      unfold start
      split
      · exact h
      · rfl
  | datagram side now sender data => exact (started_receive c side now sender data).trans h
  | takeWaiting side => exact (started_modify ..).trans h
  | poll now =>
      simp only [step]
      split
      · exact h
      · exact h
  | tick now => exact h
  | stop => exact h
  | retire side => exact (started_modify ..).trans h

/-- An end that is open stays open. -/
theorem opened_step {c : Channel} {s : Side} (h : (c.standing s).opened = true) (e : Event) :
    ((c.step e).standing s).opened = true := by
  cases advanced_step c e s with
  | stays heq => rw [heq, h]
  | starts _ _ heq => rw [heq, h]
  | opens _ _ heq => rw [heq]
  | follows _ _ _ heq => rw [heq, h]
  | ends heq => rw [heq, h]

theorem opened_after {c : Channel} {s : Side} (h : (c.standing s).opened = true)
    (events : List Event) : ((c.after events).standing s).opened = true := by
  induction events generalizing c with
  | nil => exact h
  | cons e events ih => exact ih (opened_step h e)

/-- Only a datagram that arrives at an end and is accepted there opens it. -/
theorem eq_datagram_of_opens {c : Channel} {e : Event} {s : Side}
    (hclosed : (c.standing s).opened = false)
    (hopen : ((c.step e).standing s).opened = true) :
    ∃ now sender data, e = .datagram s now sender data ∧
      (c.standing s).loop = .authenticating ∧ c.accepts s (data.take c.config.mtu) = true ∧
      (c.step e).standing s = ⟨true, sender, .relaying⟩ := by
  have hkeeps {st : Standing} (heq : (c.step e).standing s = st)
      (hst : st.opened = (c.standing s).opened) : False := by
    rw [heq, hst, hclosed] at hopen
    cases hopen
  cases e with
  | start =>
      refine (hkeeps (standing_start c s) ?_).elim
      split <;> rfl
  | datagram side now sender data =>
      rcases Side.eq_or_eq_other s side with rfl | rfl
      · have htaken := taken_receive c s now sender data
        generalize hst : (c.receive s now sender data).1.standing s = st at htaken
        generalize (c.receive s now sender data).2 = outcome at htaken
        cases htaken with
        | waits hloop => exact (hkeeps hst rfl).elim
        | unread hloop => exact (hkeeps hst rfl).elim
        | accepted hloop haccepts => exact ⟨now, sender, data, rfl, hloop, haccepts, hst⟩
        | answered hloop houtcome => exact (hkeeps hst rfl).elim
        | foreign hloop hip => exact (hkeeps hst rfl).elim
        | followed hloop hip hafter houtcome => exact (hkeeps hst rfl).elim
        | passed hloop hip hpeer => exact (hkeeps hst rfl).elim
      · exact (hkeeps (standing_receive_other c side now sender data) rfl).elim
  | takeWaiting side => exact (hkeeps (standing_takeWaiting c side s) rfl).elim
  | poll now => exact (hkeeps (standing_poll c now s) rfl).elim
  | tick now => exact (hkeeps (standing_tick c s now) rfl).elim
  | stop => exact (hkeeps (standing_halt c s) rfl).elim
  | retire side =>
      refine (hkeeps (standing_retire c side s) ?_).elim
      split <;> rfl

/-! ## The order of things -/

/-- A channel that was just made. -/
structure Fresh (c : Channel) : Prop where
  started : c.started = false
  opened : ∀ side, (c.standing side).opened = false
  loop : ∀ side, (c.standing side).loop = .idle

/-- An end is closed until the loop that reads its socket goes over from letting the peer in
to relaying, and the source end goes over after the other. -/
structure Phased (c : Channel) : Prop where
  unstarted : c.started = false → ∀ side, (c.standing side).opened = false ∧
    ((c.standing side).loop = .idle ∨ (c.standing side).loop = .ended)
  relaying : ∀ side, (c.standing side).loop = .relaying → (c.standing side).opened = true
  opened : ∀ side, (c.standing side).opened = true →
    (c.standing side).loop = .relaying ∨ (c.standing side).loop = .ended
  src_after_dst : (c.standing .src).opened = true → (c.standing .dst).opened = true

theorem Fresh.phased {c : Channel} (h : Fresh c) : Phased c := by
  constructor
  · intro _ side
    exact ⟨h.opened side, .inl (h.loop side)⟩
  · intro side hloop
    rw [h.loop side] at hloop
    cases hloop
  · intro side ho
    cases (h.opened side).symm.trans ho
  · intro ho
    cases (h.opened .src).symm.trans ho

/-- A channel that has not been started lets nobody in and relays nothing. -/
theorem Phased.started_of_loop {c : Channel} (h : Phased c) {side : Side}
    (hloop : (c.standing side).loop = .authenticating ∨ (c.standing side).loop = .relaying) :
    c.started = true := by
  refine (Bool.not_eq_false _).mp fun hnew => ?_
  rcases (h.unstarted hnew side).2 with hidle | hended
  · rw [hidle] at hloop
    rcases hloop with hloop | hloop <;> cases hloop
  · rw [hended] at hloop
    rcases hloop with hloop | hloop <;> cases hloop

theorem Phased.step {c : Channel} (h : Phased c) (e : Event) : Phased (c.step e) := by
  have hadvanced := advanced_step c e
  constructor
  · intro hnew side
    have hold : c.started = false :=
      Bool.eq_false_iff.mpr fun hs => by cases hnew.symm.trans (started_step hs e)
    obtain ⟨hclosed, hloop⟩ := h.unstarted hold side
    cases hadvanced side with
    | stays heq =>
        rw [heq]
        exact ⟨hclosed, hloop⟩
    | starts _ hstarted _ => cases hnew.symm.trans hstarted
    | opens hauth _ _ => cases hold.symm.trans (h.started_of_loop (.inl hauth))
    | follows hrelay _ _ _ => cases hold.symm.trans (h.started_of_loop (.inr hrelay))
    | ends heq =>
        rw [heq]
        exact ⟨hclosed, .inr rfl⟩
  · intro side hloop
    cases hadvanced side with
    | stays heq =>
        rw [heq] at hloop ⊢
        exact h.relaying side hloop
    | starts _ _ heq =>
        rw [heq] at hloop
        cases hloop
    | opens _ _ heq => rw [heq]
    | follows hrelay _ _ heq =>
        rw [heq]
        exact h.relaying side hrelay
    | ends heq =>
        rw [heq] at hloop
        cases hloop
  · intro side ho
    cases hadvanced side with
    | stays heq =>
        rw [heq] at ho ⊢
        exact h.opened side ho
    | starts hold _ heq =>
        rw [heq] at ho
        cases (h.unstarted hold side).1.symm.trans ho
    | opens _ _ heq =>
        rw [heq]
        exact .inl rfl
    | follows _ _ hafter heq =>
        rw [heq]
        exact hafter
    | ends heq =>
        rw [heq]
        exact .inr rfl
  · intro ho
    -- The source end was open already, or it opens now and finds the other end open.
    have hdst : (c.standing .dst).opened = true := by
      cases hadvanced .src with
      | stays heq => exact h.src_after_dst (heq ▸ ho)
      | starts _ _ heq =>
          rw [heq] at ho
          exact h.src_after_dst ho
      | opens _ haccepts _ =>
          have hopen : c.dst.opened = true := by
            simpa [accepts] using (Bool.and_eq_true_iff.mp haccepts).2
          exact hopen
      | follows _ _ _ heq =>
          rw [heq] at ho
          exact h.src_after_dst ho
      | ends heq =>
          rw [heq] at ho
          exact h.src_after_dst ho
    exact opened_step hdst e

/-- The order of things holds throughout every run. -/
theorem Phased.after {c : Channel} (h : Phased c) (events : List Event) :
    Phased (c.after events) := by
  induction events generalizing c with
  | nil => exact h
  | cons e events ih => exact ih (h.step e)

end Channel

end PeerRelay
