import Mathlib.Order.Basic
import PeerRelay.Proofs.Channel.Run
import PeerRelay.Proofs.Relay.Metering

/-!
# A channel goes one way

A channel that was started stays so, an end that is open stays open, and what is over stays
over. So the state of a channel only moves forward. The loops that read the sockets are launched
by a start only, and only by that of a channel that was neither started nor stopped before. When
a channel is stopped its sockets go, and from then on no end passes anything on, wherever its
loop is.
-/

namespace PeerRelay.Channel

variable {c d : Channel} {side : Side}

/-! ## The states in their order -/

/-- The place of a state among the states that a channel goes through. -/
def State.rank : State → Nat
  | initialized => 0
  | authPending => 1
  | running => 2
  | stopped => 3

theorem State.rank_injective : Function.Injective State.rank := by
  intro a b h
  cases a <;> cases b <;> first | rfl | cases h

instance : PartialOrder State := PartialOrder.lift State.rank State.rank_injective

theorem State.initialized_le (a : State) : initialized ≤ a := Nat.zero_le a.rank

theorem State.le_stopped (a : State) : a ≤ stopped := by
  show a.rank ≤ 3
  cases a <;> decide

/-- A channel is no less far when everything that it has come to still holds. -/
theorem state_le (hstopped : c.stopped = true → d.stopped = true)
    (hstarted : c.started = true → d.started = true)
    (hopened : ∀ s, (c.standing s).opened = true → (d.standing s).opened = true) :
    c.state ≤ d.state := by
  cases hover : d.stopped with
  | true =>
      have hd : d.state = .stopped := if_pos hover
      rw [hd]
      exact State.le_stopped _
  | false =>
      have hc : c.stopped = false :=
        Bool.eq_false_iff.mpr fun h => by cases hover.symm.trans (hstopped h)
      have hboth : (c.src.opened && c.dst.opened) = true →
          (d.src.opened && d.dst.opened) = true := by
        intro h
        rw [Bool.and_eq_true] at h ⊢
        exact ⟨hopened .src h.1, hopened .dst h.2⟩
      simp only [state, hc, hover, Bool.false_eq_true, if_false]
      cases hs : c.started with
      | false => exact State.initialized_le _
      | true =>
          rw [hstarted hs]
          simp only [Bool.not_true, Bool.false_eq_true, if_false]
          split
          · rename_i hopen
            rw [if_pos (hboth hopen)]
          · show State.rank .authPending ≤ State.rank _
            split <;> decide

/-- Whatever happens to a channel, its state does not go back. -/
theorem state_le_step (c : Channel) (e : Event) : c.state ≤ (c.step e).state :=
  state_le (stopped_step · e) (started_step · e) fun _ h => opened_step h e

theorem Ran.state_le (h : Ran c d) : c.state ≤ d.state := by
  obtain ⟨events, rfl⟩ := h
  induction events generalizing c with
  | nil => exact le_refl _
  | cons e events ih => exact le_trans (state_le_step c e) ih

theorem Ran.started (h : Ran c d) (hs : c.started = true) : d.started = true := by
  obtain ⟨events, rfl⟩ := h
  induction events generalizing c with
  | nil => exact hs
  | cons e events ih => exact ih (started_step hs e)

/-! ## The loops are launched -/

/-- The loop that reads the socket of an end is launched between two moments. -/
def Launches (side : Side) (c d : Channel) : Prop :=
  (c.endpoint side).loop ≠ .authenticating ∧ (d.endpoint side).loop = .authenticating

/-- The start of a channel that was started or stopped before does nothing at all. -/
theorem start_eq_self (h : c.stopped = true ∨ c.started = true) : c.start = c :=
  if_pos (Bool.or_eq_true_iff.mpr h)

/-- Only a start launches a loop, and only if there was neither a start nor a stop before. -/
theorem Launches.of_step {e : Event} (h : Launches side c (c.step e)) :
    e = .start ∧ c.stopped = false ∧ c.started = false ∧ (c.step e).started = true := by
  obtain ⟨hbefore, hafter⟩ := h
  have hadvanced := advanced_step c e side
  have hloop (st : Standing) (heq : (c.step e).standing side = st) : st.loop = .authenticating :=
    heq ▸ hafter
  cases hadvanced with
  | stays heq => exact absurd (hloop _ heq) hbefore
  | opens _ _ heq => cases hloop _ heq
  | follows _ _ hnext heq => rcases hnext with rfl | rfl <;> cases hloop _ heq
  | ends heq => cases hloop _ heq
  | starts hnew hstarted _ =>
      cases e with
      | start =>
          refine ⟨rfl, Bool.eq_false_iff.mpr fun hover => ?_, hnew, hstarted⟩
          have hnothing := congrArg Channel.started (start_eq_self (.inl hover))
          cases hnew.symm.trans (hnothing.symm.trans hstarted)
      | datagram s now sender data =>
          cases hnew.symm.trans ((started_receive c s now sender data).symm.trans hstarted)
      | takeWaiting s => cases hnew.symm.trans ((started_modify ..).symm.trans hstarted)
      | poll now =>
          have hsame : (c.step (.poll now)).started = c.started := by
            simp only [step]
            split <;> rfl
          cases hnew.symm.trans (hsame.symm.trans hstarted)
      | tick now => cases hnew.symm.trans hstarted
      | stop => cases hnew.symm.trans hstarted
      | retire s => cases hnew.symm.trans ((started_modify ..).symm.trans hstarted)

/-- So it is in the course of a whole run. -/
theorem Launches.of_ran (h : Launches side c d) (hran : Ran c d) :
    c.stopped = false ∧ c.started = false ∧ d.started = true := by
  obtain ⟨events, rfl⟩ := hran
  induction events generalizing c with
  | nil => exact absurd h.2 h.1
  | cons e events ih =>
      by_cases hfirst : ((c.step e).endpoint side).loop = .authenticating
      · obtain ⟨-, hopen, hnew, hstarted⟩ := Launches.of_step ⟨h.1, hfirst⟩
        exact ⟨hopen, hnew, Ran.started ⟨events, rfl⟩ hstarted⟩
      · obtain ⟨hopen, hnew, hstarted⟩ := ih ⟨hfirst, h.2⟩
        exact ⟨Bool.eq_false_iff.mpr (Bool.eq_false_iff.mp hopen <| stopped_step · e),
          Bool.eq_false_iff.mpr (Bool.eq_false_iff.mp hnew <| started_step · e), hstarted⟩

/-! ## The sockets are closed -/

/-- Both sockets are gone. -/
def Shut (c : Channel) : Prop := ∀ side, (c.endpoint side).socketHeld = false

/-- A channel that is over has let go of both sockets. -/
def Sealed (c : Channel) : Prop := c.stopped = true → c.Shut

theorem socketHeld_modify (c : Channel) (side s : Side) {f : Endpoint → Endpoint}
    (h : ∀ e, (f e).socketHeld = e.socketHeld) :
    ((c.modify side f).endpoint s).socketHeld = (c.endpoint s).socketHeld := by
  cases side <;> cases s <;> first | exact h _ | rfl

theorem Shut.modify (h : c.Shut) (side : Side) {f : Endpoint → Endpoint}
    (hf : ∀ e, (f e).socketHeld = e.socketHeld) : (c.modify side f).Shut :=
  fun s => (socketHeld_modify c side s hf).trans (h s)

theorem socketHeld_receive (c : Channel) (side s : Side) (now : Nat) (sender : SocketAddr)
    (data : Bytes) :
    ((c.receive side now sender data).1.endpoint s).socketHeld = (c.endpoint s).socketHeld := by
  have hkept {d : Channel} {f : Endpoint → Endpoint} (hf : ∀ e, (f e).socketHeld = e.socketHeld)
      (hd : (d.endpoint s).socketHeld = (c.endpoint s).socketHeld) :
      ((d.modify side f).endpoint s).socketHeld = (c.endpoint s).socketHeld :=
    (socketHeld_modify d side s hf).trans hd
  have htouch : ((c.touch side now).endpoint s).socketHeld = (c.endpoint s).socketHeld :=
    hkept (fun _ => rfl) rfl
  unfold receive
  dsimp only
  split
  · refine hkept (fun e => ?_) rfl
    split <;> rfl
  · unfold authenticate
    dsimp only
    split
    · exact htouch
    · split
      · exact hkept (fun _ => rfl) htouch
      · exact htouch
  · unfold relay
    dsimp only
    split
    · rfl
    · have hmoved : (((c.modify side fun e => { e with remote := sender }).touch side now).endpoint
          s).socketHeld = (c.endpoint s).socketHeld :=
        hkept (fun _ => rfl) (hkept (fun _ => rfl) rfl)
      split
      · exact hmoved
      · split
        · exact hmoved
        · split
          · exact hkept (fun _ => rfl) hmoved
          · refine Eq.trans ?_ hmoved
            cases side <;> cases s <;> rfl
  · rfl

/-- Whatever happens to a channel leaves its sockets and it being over as they were, or shuts the
sockets and ends the channel. -/
theorem shuts_step (c : Channel) (e : Event) :
    ((c.step e).stopped = c.stopped ∧
      ∀ s, ((c.step e).endpoint s).socketHeld = (c.endpoint s).socketHeld) ∨
    ((c.step e).stopped = true ∧ (c.step e).Shut) := by
  have hhalt : c.halt.Shut := by
    intro s
    cases s <;> rfl
  cases e with
  | start =>
      refine .inl ⟨stopped_start c, fun s => ?_⟩
      show (c.start.endpoint s).socketHeld = _
      unfold start
      split
      · rfl
      · cases s <;> rfl
  | datagram side now sender data =>
      exact .inl ⟨(receive_keeps c side now sender data).2,
        fun s => socketHeld_receive c side s now sender data⟩
  | takeWaiting side =>
      exact .inl ⟨stopped_modify .., fun s => socketHeld_modify c side s fun _ => rfl⟩
  | poll now =>
      simp only [step]
      split
      · exact .inr ⟨rfl, hhalt⟩
      · exact .inl ⟨rfl, fun _ => rfl⟩
  | tick now => exact .inl ⟨rfl, fun s => by cases s <;> rfl⟩
  | stop => exact .inr ⟨rfl, hhalt⟩
  | retire side => exact .inl ⟨stopped_modify .., fun s => socketHeld_modify c side s fun _ => rfl⟩

/-- As long as a channel is open its sockets are as they were. -/
theorem Ran.socketHeld (h : Ran c d) (hopen : d.stopped = false) (side : Side) :
    (d.endpoint side).socketHeld = (c.endpoint side).socketHeld := by
  obtain ⟨events, rfl⟩ := h
  induction events generalizing c with
  | nil => rfl
  | cons e events ih =>
      rcases shuts_step c e with ⟨-, hheld⟩ | ⟨hover, -⟩
      · exact (ih hopen).trans (hheld side)
      · cases hopen.symm.trans (Ran.stopped ⟨events, rfl⟩ hover)

/-- Sockets that are gone do not come back. -/
theorem Ran.shut (h : Ran c d) (hc : c.Shut) : d.Shut := by
  obtain ⟨events, rfl⟩ := h
  induction events generalizing c with
  | nil => exact hc
  | cons e events ih =>
      rcases shuts_step c e with ⟨-, hheld⟩ | ⟨-, hshut⟩
      · exact ih fun s => (hheld s).trans (hc s)
      · exact ih hshut

theorem Ran.isSealed (h : Ran c d) (hc : c.Sealed) : d.Sealed := by
  obtain ⟨events, rfl⟩ := h
  induction events generalizing c with
  | nil => exact hc
  | cons e events ih =>
      refine ih fun hover => ?_
      rcases shuts_step c e with ⟨hsame, hheld⟩ | ⟨-, hshut⟩
      · exact fun s => (hheld s).trans (hc (hsame.symm.trans hover) s)
      · exact hshut

/-! ## Nothing passes -/

/-- Without sockets an end passes nothing on, wherever its loop is. -/
theorem Shut.passes (h : c.Shut) (side : Side) (sender : SocketAddr) (data : Bytes) :
    c.passes side sender data = false := by
  simp [Channel.passes, h side.other]

/-- A datagram that comes too late is passed on to nobody and counted nowhere. -/
theorem Shut.receive (h : c.Shut) (side : Side) (now : Nat) (sender : SocketAddr) (data : Bytes) :
    (c.receive side now sender data).1.traffic = c.traffic ∧
      ∀ target sent, (c.receive side now sender data).2 ≠ .forwarded target sent := by
  have hmetered := metered_receive c side now sender data
  generalize (c.receive side now sender data).1.traffic = traffic at hmetered ⊢
  generalize (c.receive side now sender data).2 = outcome at hmetered ⊢
  cases hmetered with
  | passed target hpasses => cases (h.passes ..).symm.trans hpasses
  | refused _ => exact ⟨rfl, nofun⟩
  | uncounted _ _ houtcome =>
      refine ⟨rfl, ?_⟩
      rcases houtcome with rfl | ⟨reply, rfl⟩ <;> exact nofun

theorem Shut.traffic_step (h : c.Shut) (e : Event) : (c.step e).traffic = c.traffic := by
  cases e with
  | start =>
      show c.start.traffic = c.traffic
      unfold start
      split <;> rfl
  | datagram side now sender data => exact (h.receive side now sender data).1
  | takeWaiting side => exact traffic_modify ..
  | poll now =>
      simp only [step]
      split <;> rfl
  | tick now => rfl
  | stop => rfl
  | retire side => exact traffic_modify ..

/-- The counters of a channel without sockets are final. -/
theorem Ran.traffic (h : Ran c d) (hc : c.Shut) : d.traffic = c.traffic := by
  obtain ⟨events, rfl⟩ := h
  induction events generalizing c with
  | nil => rfl
  | cons e events ih =>
      have hnext := (Ran.step c e).shut hc
      exact (ih hnext).trans (hc.traffic_step e)

end PeerRelay.Channel
