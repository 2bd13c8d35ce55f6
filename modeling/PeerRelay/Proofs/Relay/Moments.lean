import PeerRelay.Proofs.Relay.Answers

/-!
# Runs moment by moment

An event is over when its operation is, but in between the relay goes through one state
after another. Here are all the states that a run goes through, and of what parts the
operations of events are made.
-/

namespace PeerRelay.Relay

open Steps
open Wire (Frame)

variable {r : Relay} {R : Relay → Relay → Prop} {Q : SessionRef → Push → Prop}

/-- The states that a relay goes through while events happen, one for each step. -/
def moments (r : Relay) : List Event → List Relay
  | [] => []
  | e :: events => e.op.trace r ++ (r.step e).moments events

/-- The last state of a run is the one that its events lead to. -/
theorem getLast_moments (r : Relay) (events : List Event) :
    (r :: r.moments events).getLast (List.cons_ne_nil _ _) = r.after events := by
  induction events generalizing r with
  | nil => rfl
  | cons e events ih =>
      have hfirst : _ = r.step e := getLast_trace e.op r
      have hrest := ih (r.step e)
      rw [after_cons, ← hrest]
      cases hm : (r.step e).moments events with
      | nil => simpa [moments, hm] using hfirst
      | cons m rest => simp [moments, hm]

/-- If every step of every event is in the relation, every step of the run is. -/
theorem isChain_moments (h : ∀ r (e : Event), e.op.Along R r) (r : Relay) (events : List Event) :
    (r :: r.moments events).IsChain R := by
  induction events generalizing r with
  | nil => exact List.isChain_singleton r
  | cons e events ih =>
      have hfirst := isChain_trace (h r e)
      have hlast := getLast_trace e.op r
      have hrest := ih (r.step e)
      rw [moments, ← List.cons_append]
      refine hfirst.append (List.isChain_of_isChain_cons hrest) fun a ha b hb => ?_
      rw [List.getLast?_eq_getLast_of_ne_nil (List.cons_ne_nil _ _), hlast] at ha
      cases ha
      exact List.isChain_cons.mp hrest |>.1 b hb

/-- What holds of everything that is quiet, of the end of a session and of a channel, and of
one operation after another if it holds of both, holds of every event but for what it says of
the bytes that come in. -/
theorem op_of_parts {T : (α : Type) → Op α → Relay → Prop}
    (hquiet : ∀ {α : Type} {p : Op α} (r : Relay), p.Each SameChannels → p.Each Silent → T α p r)
    (hbind : ∀ {α β : Type} {p : Op α} {f : α → Op β} {r : Relay}, T α p r →
      T β (f (p.run r).1) (p.exec r) → T β (p >>= f) r)
    (hsession : ∀ s r, T Unit (stopSession s) r) (hchannel : ∀ c r, T Unit (stopChannel c) r)
    (r : Relay) (e : Event)
    (hbytes : ∀ s data, e = .bytes s data → T Unit (receive s data) r) : T Unit e.op r := by
  have hread {α β : Type} {g : Relay → α} {f : α → Op β} {r : Relay} (hf : T β (f (g r)) r) :
      T β (read g >>= f) r := hbind (hquiet r (each_read g) (each_read g)) hf
  have hpure {α : Type} (a : α) (r : Relay) : T α (pure a) r :=
    hquiet r (each_pure a) (each_pure a)
  have hloop (ss : List SessionRef) (r : Relay) : T Unit (ss.forM stopSession) r := by
    induction ss generalizing r with
    | nil => exact hpure () r
    | cons s ss ih => exact hbind (hsession s r) (ih _)
  cases e with
  | connect role peer localAddr =>
      exact hbind (hquiet r (accept_sameChannels ..) (accept_silent ..)) (hpure () _)
  | reserve =>
      exact hbind (hquiet r reserveConnection_sameChannels reserveConnection_silent) (hpure () _)
  | begin role peer localAddr =>
      exact hbind (hquiet r (startSession_sameChannels ..) (startSession_silent ..)) (hpure () _)
  | abandon => exact hquiet r releaseConnection_sameChannels releaseConnection_silent
  | bytes s data => exact hbytes s data rfl
  | disconnect s => exact hsession s r
  | datagram c side sender data =>
      exact hquiet r (datagram_sameChannels ..) (datagram_silent ..)
  | due duty =>
      cases duty with
      | login s =>
          refine hread ?_
          split
          · exact hsession s r
          · exact hpure () r
      | poll c =>
          refine hread ?_
          split
          · exact hchannel c r
          · exact hpure () r
      | report c => exact hquiet r (report_sameChannels c) (report_silent c)
  | closeSession id =>
      refine hbind (hread ?_) (hpure () _)
      split
      · exact hpure false r
      · exact hbind (hsession _ r) (hpure true _)
  | closeChannel id =>
      refine hbind (hread ?_) (hpure () _)
      split
      · exact hpure false r
      · exact hbind (hchannel _ r) (hpure true _)
  | stopAll => exact hread (hloop _ r)
  | pass nanoseconds =>
      exact hquiet r (each_modify fun _ => .of_eq rfl) (each_modify fun _ => .of_sessions rfl)
  | sync => exact hquiet r (each_modify fun _ => .of_eq rfl) (each_modify fun _ => .of_sessions rfl)

end PeerRelay.Relay
