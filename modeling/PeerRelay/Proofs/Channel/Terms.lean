import PeerRelay.Channel

/-!
# What a channel keeps

What is settled about a channel when it is made stays as it was, whatever the
channel goes through. Apart from a halt, nothing makes a channel stop either.
-/

namespace PeerRelay

/-- What is settled about a channel when it is made. -/
structure Channel.Terms where
  id : ChannelId
  config : Channel.Config
  session : Side → SessionRef
  sessionId : Side → SessionId
  relay : Side → SocketAddr

def Channel.terms (c : Channel) : Channel.Terms where
  id := c.id
  config := c.config
  session side := (c.endpoint side).session
  sessionId side := (c.endpoint side).sessionId
  relay side := (c.endpoint side).relay

namespace Channel

theorem terms_modify {c : Channel} {side : Side} {f : Endpoint → Endpoint}
    (h : ∀ e, (f e).session = e.session ∧ (f e).sessionId = e.sessionId ∧
      (f e).relay = e.relay) : (c.modify side f).terms = c.terms := by
  cases side
  · obtain ⟨h₁, h₂, h₃⟩ := h c.src
    simp only [terms, modify, Terms.mk.injEq, true_and]
    refine ⟨funext ?_, funext ?_, funext ?_⟩ <;> rintro (_ | _) <;> simp [endpoint, *]
  · obtain ⟨h₁, h₂, h₃⟩ := h c.dst
    simp only [terms, modify, Terms.mk.injEq, true_and]
    refine ⟨funext ?_, funext ?_, funext ?_⟩ <;> rintro (_ | _) <;> simp [endpoint, *]

@[simp] theorem stopped_modify (c : Channel) (side : Side) (f : Endpoint → Endpoint) :
    (c.modify side f).stopped = c.stopped := by
  cases side <;> rfl

@[simp] theorem terms_touch (c : Channel) (side : Side) (now : Nat) :
    (c.touch side now).terms = c.terms :=
  terms_modify fun _ => ⟨rfl, rfl, rfl⟩

@[simp] theorem stopped_touch (c : Channel) (side : Side) (now : Nat) :
    (c.touch side now).stopped = c.stopped :=
  stopped_modify ..

@[simp] theorem terms_count (c : Channel) (side : Side) (bytes : Nat) :
    (c.count side bytes).terms = c.terms := by
  cases side <;> rfl

@[simp] theorem stopped_count (c : Channel) (side : Side) (bytes : Nat) :
    (c.count side bytes).stopped = c.stopped := by
  cases side <;> rfl

@[simp] theorem terms_retire (c : Channel) (side : Side) : (c.retire side).terms = c.terms :=
  terms_modify fun _ => ⟨rfl, rfl, rfl⟩

@[simp] theorem terms_halt (c : Channel) : c.halt.terms = c.terms := by
  simp only [terms, halt, Terms.mk.injEq, true_and]
  refine ⟨funext ?_, funext ?_, funext ?_⟩ <;> rintro (_ | _) <;> rfl

theorem terms_start (c : Channel) : c.start.terms = c.terms := by
  unfold start
  split
  · rfl
  · simp only [terms, Terms.mk.injEq, true_and]
    refine ⟨funext ?_, funext ?_, funext ?_⟩ <;> rintro (_ | _) <;> rfl

theorem stopped_start (c : Channel) : c.start.stopped = c.stopped := by
  unfold start
  split <;> rfl

theorem terms_takeWaiting (c : Channel) (side : Side) :
    (c.takeWaiting side).2.terms = c.terms :=
  terms_modify fun _ => ⟨rfl, rfl, rfl⟩

/-- A datagram changes neither what is settled about a channel nor whether it is over. -/
theorem receive_keeps (c : Channel) (side : Side) (now : Nat) (sender : SocketAddr)
    (data : Bytes) :
    (c.receive side now sender data).1.terms = c.terms ∧
      (c.receive side now sender data).1.stopped = c.stopped := by
  have hkept {d : Channel} {f : Endpoint → Endpoint}
      (hf : ∀ e, (f e).session = e.session ∧ (f e).sessionId = e.sessionId ∧
        (f e).relay = e.relay) (hd : d.terms = c.terms ∧ d.stopped = c.stopped) :
      (d.modify side f).terms = c.terms ∧ (d.modify side f).stopped = c.stopped :=
    ⟨(terms_modify hf).trans hd.1, (stopped_modify d side f).trans hd.2⟩
  have htouch : (c.touch side now).terms = c.terms ∧ (c.touch side now).stopped = c.stopped :=
    ⟨terms_touch .., stopped_touch ..⟩
  unfold receive
  dsimp only
  split
  · refine hkept (fun e => ?_) ⟨rfl, rfl⟩
    split <;> exact ⟨rfl, rfl, rfl⟩
  · unfold authenticate
    dsimp only
    split
    · exact htouch
    · split
      · exact hkept (fun _ => ⟨rfl, rfl, rfl⟩) htouch
      · exact htouch
  · unfold relay
    dsimp only
    split
    · exact ⟨rfl, rfl⟩
    · have hmoved : ((c.modify side fun e => { e with remote := sender }).touch side now).terms =
          c.terms ∧
          ((c.modify side fun e => { e with remote := sender }).touch side now).stopped =
            c.stopped :=
        hkept (fun _ => ⟨rfl, rfl, rfl⟩) (hkept (fun _ => ⟨rfl, rfl, rfl⟩) ⟨rfl, rfl⟩)
      split
      · exact hmoved
      · split
        · exact hmoved
        · split
          · exact hkept (fun _ => ⟨rfl, rfl, rfl⟩) hmoved
          · exact ⟨(terms_count ..).trans hmoved.1, (stopped_count ..).trans hmoved.2⟩
  · exact ⟨rfl, rfl⟩

end Channel

end PeerRelay
