import PeerRelay.Proofs.Channel.Admission
import PeerRelay.Proofs.Channel.Intake
import PeerRelay.Proofs.Channel.Stages
import PeerRelay.Proofs.Relay.Lasting

/-!
# What a run comes to

A channel that was started, and whose sockets are both still read, has come to just what the
datagrams tell that have arrived since: which ends are open, where the peers are, and when they
were heard last. Nothing else that happens to it in between has a part in that.
-/

namespace PeerRelay.Channel

/-! ## What a datagram does to a channel -/

variable {c : Channel} {s : Side}

@[simp] theorem createdAt_modify (c : Channel) (side : Side) (f : Endpoint → Endpoint) :
    (c.modify side f).createdAt = c.createdAt := by
  cases side <;> rfl

/-- A channel after an end was opened. -/
def admitted (c : Channel) (side : Side) (now : Nat) (sender : SocketAddr) : Channel :=
  (c.touch side now).modify side fun e =>
    { e with remote := sender, opened := true, loop := .relaying }

/-- A channel after an open end has heard its peer. -/
def followed (c : Channel) (side : Side) (now : Nat) (sender : SocketAddr) : Channel :=
  (c.modify side fun e => { e with remote := sender }).touch side now

theorem receive_of_admitted {now : Nat} {sender : SocketAddr} {data : Bytes}
    (hloop : (c.endpoint s).loop = .authenticating)
    (hdata : (data.take c.config.mtu).isEmpty = false)
    (haccepts : c.accepts s (data.take c.config.mtu) = true) :
    c.receive s now sender data =
      (c.admitted s now sender, .echoed (data.take c.config.mtu)) := by
  have htouch : (c.touch s now).accepts s (data.take c.config.mtu) = true := by
    rw [← haccepts]
    cases s <;> rfl
  simp only [receive, hloop, authenticate, hdata, htouch, Bool.false_eq_true, if_false, if_true,
    admitted]

/-- What a closed end says to a datagram that does not let its sender in. -/
def denial (data : Bytes) : Outcome :=
  if data.isEmpty then .ignored else .echoed (List.replicate data.length 0)

theorem receive_of_denied {now : Nat} {sender : SocketAddr} {data : Bytes}
    (hloop : (c.endpoint s).loop = .authenticating)
    (hdenied : (!(data.take c.config.mtu).isEmpty &&
      c.accepts s (data.take c.config.mtu)) = false) :
    c.receive s now sender data = (c.touch s now, denial (data.take c.config.mtu)) := by
  have htouch (data : Bytes) : (c.touch s now).accepts s data = c.accepts s data := by
    cases s <;> rfl
  simp only [receive, hloop, authenticate, htouch, denial]
  cases hempty : (data.take c.config.mtu).isEmpty with
  | true => simp
  | false =>
      have hno : c.accepts s (data.take c.config.mtu) = false := by simpa [hempty] using hdenied
      simp [hno]

theorem receive_of_foreign {now : Nat} {sender : SocketAddr} {data : Bytes}
    (hloop : (c.endpoint s).loop = .relaying) (hip : sender.ip ≠ (c.endpoint s).remote.ip) :
    c.receive s now sender data = (c, .dropped) := by
  simp only [receive, hloop, relay, ne_eq, hip, not_false_eq_true, if_true]

theorem receive_of_peer {sender : SocketAddr} (hloop : (c.endpoint s).loop = .relaying)
    (hip : sender.ip = (c.endpoint s).remote.ip) (now : Nat) (data : Bytes) :
    c.receive s now sender data =
      if (data.take c.config.mtu).length ≤ keepaliveLength then (c.followed s now sender, .ignored)
      else if (c.endpoint s.other).opened = false then (c.followed s now sender, .dropped)
      else if (c.endpoint s.other).socketHeld = false then
        ((c.followed s now sender).modify s ({ · with loop := .ended }), .ignored)
      else ((c.followed s now sender).count s (data.take c.config.mtu).length,
        .forwarded (c.endpoint s.other).remote (data.take c.config.mtu)) := by
  have hpeer : (c.followed s now sender).endpoint s.other = c.endpoint s.other := by
    rw [followed, touch, endpoint_modify_other, endpoint_modify_other]
  simp only [receive, hloop, relay, hip, ne_eq, not_true_eq_false, if_false, followed,
    Bool.not_eq_true'] at hpeer ⊢
  rw [hpeer]

@[simp] theorem createdAt_count (c : Channel) (side : Side) (bytes : Nat) :
    (c.count side bytes).createdAt = c.createdAt := by
  cases side <;> rfl

theorem createdAt_receive (c : Channel) (side : Side) (now : Nat) (sender : SocketAddr)
    (data : Bytes) : (c.receive side now sender data).1.createdAt = c.createdAt := by
  unfold receive
  dsimp only
  split
  · exact createdAt_modify ..
  · unfold authenticate
    dsimp only
    split
    · exact createdAt_modify ..
    · split <;> simp [touch]
  · unfold relay
    dsimp only
    split
    · rfl
    · split
      · simp [touch]
      · split
        · simp [touch]
        · split <;> simp [touch]
  · rfl

theorem createdAt_step (c : Channel) (e : Event) : (c.step e).createdAt = c.createdAt := by
  cases e with
  | start =>
      show c.start.createdAt = c.createdAt
      unfold start
      split <;> rfl
  | datagram side now sender data => exact createdAt_receive c side now sender data
  | takeWaiting side => exact createdAt_modify ..
  | poll now =>
      simp only [step]
      split <;> rfl
  | tick now => rfl
  | stop => rfl
  | retire side => exact createdAt_modify ..

/-! ## What a run comes to -/

/-- A channel as it is made: its peers have not been heard yet, and it is not over. -/
structure Ready (c : Channel) : Prop extends Fresh c where
  going : c.stopped = false
  held : ∀ s, (c.endpoint s).socketHeld = true
  unheard : ∀ s, (c.endpoint s).lastActive = 0

theorem ready_newChannel (r : Relay) (src dst : SessionRef) : Ready (r.newChannel src dst) :=
  ⟨r.fresh_newChannel src dst, rfl, fun s => by cases s <;> rfl, fun s => by cases s <;> rfl⟩

theorem ready_pair : Ready pair :=
  ⟨fresh_pair, rfl, fun s => by cases s <;> rfl, fun s => by cases s <;> rfl⟩

/-- Both sockets are still being read. -/
def Attended (c : Channel) : Prop := ∀ s, (c.endpoint s).loop ≠ .ended

/-- An end has come to what these datagrams say. -/
structure Tracks (c : Channel) (s : Side) (ds : List Datagram) (e : Endpoint) : Prop where
  opened : e.opened = c.config.policy.opened s ds
  loop : e.loop = if c.config.policy.opened s ds then .relaying else .authenticating
  remote : e.remote = (c.config.policy.peer? s ds).getD (c.endpoint s).remote
  lastActive : e.lastActive = c.age ((c.config.policy.lastHeard? s ds).getD c.createdAt)

variable {d : Channel} {ds : List Datagram}

theorem Ready.started_start (hc : Ready c) : c.start.started = true := by
  simp [start, hc.going, hc.started]

theorem Ready.tracks_start (hc : Ready c) (s : Side) : Tracks c s [] (c.start.endpoint s) := by
  have hopened : c.config.policy.opened s [] = false := by cases s <;> rfl
  have hstart : c.start.endpoint s = { c.endpoint s with loop := .authenticating } := by
    simp only [start, hc.going, hc.started, Bool.or_self, Bool.false_eq_true, if_false]
    cases s <;> rfl
  constructor
  · rw [hstart, hopened]
    exact hc.opened s
  · rw [hstart, hopened]
    rfl
  · rw [hstart, Policy.peer?_of_closed hopened]
    rfl
  · rw [hstart]
    exact (hc.unheard s).trans (by simp [Policy.lastHeard?, withPast, age])

/-- A socket that is read no longer stays so. -/
theorem ended_step (hd : d.started = true) (h : (d.endpoint s).loop = .ended) (e : Event) :
    ((d.step e).endpoint s).loop = .ended := by
  have hloop : (d.standing s).loop = .ended := h
  show ((d.step e).standing s).loop = .ended
  cases advanced_step d e s with
  | stays heq => rw [heq, hloop]
  | starts hnew _ _ => cases hnew.symm.trans hd
  | opens hauth _ _ => cases hauth.symm.trans hloop
  | follows hrelay _ _ _ => cases hrelay.symm.trans hloop
  | ends heq => rw [heq]

theorem Attended.of_after {events : List Event} (h : (d.after events).Attended)
    (hd : d.started = true) : d.Attended := by
  induction events generalizing d with
  | nil => exact h
  | cons e events ih =>
      exact fun s hended => ih h (started_step hd e) s (ended_step hd hended e)

/-- Sockets that are read at the end of a run were read throughout. -/
theorem Ready.attended_of_append (hc : Ready c) {events more : List Event}
    (h : (c.start.after (events ++ more)).Attended) : (c.start.after events).Attended := by
  rw [after_append] at h
  exact h.of_after (Ran.started ⟨events, rfl⟩ hc.started_start)

/-- What is no datagram moves no end of a channel that has been started and is still read. -/
theorem endpoint_step (hd : d.started = true) {e : Event} (he : e.taken? d.config.mtu = none)
    (hattended : (d.step e).Attended) (s : Side) :
    ∃ held waiting, (d.step e).endpoint s =
      { d.endpoint s with socketHeld := held, waiting := waiting } := by
  have hhalt : ∃ held waiting, d.halt.endpoint s =
      { d.endpoint s with socketHeld := held, waiting := waiting } :=
    ⟨false, (d.endpoint s).waiting, by cases s <;> rfl⟩
  cases e with
  | start => exact ⟨_, _, congrArg (endpoint · s) (start_eq_self (.inr hd))⟩
  | datagram side now sender data => cases he
  | takeWaiting side =>
      rcases Side.eq_or_eq_other s side with rfl | rfl
      · exact ⟨_, _, endpoint_modify_same ..⟩
      · exact ⟨_, _, endpoint_modify_other ..⟩
  | poll now =>
      simp only [step]
      split
      · exact hhalt
      · exact ⟨_, _, rfl⟩
  | tick now => exact ⟨(d.endpoint s).socketHeld, (d.endpoint s).waiting, by cases s <;> rfl⟩
  | stop => exact hhalt
  | retire side =>
      refine absurd ?_ (hattended side)
      exact congrArg Endpoint.loop (endpoint_modify_same ..)

/-! ### One end -/

namespace Tracks

variable {e : Endpoint} {x : Datagram} {a : SocketAddr}

/-- What leaves the sockets as they are, and what waits there, does not matter. -/
theorem of_waiting (h : Tracks c s ds e) (held : Bool) (waiting : List (SocketAddr × Bytes)) :
    Tracks c s ds { e with socketHeld := held, waiting := waiting } :=
  ⟨h.opened, h.loop, h.remote, h.lastActive⟩

theorem elsewhere (h : Tracks c s ds e) (hx : x.side ≠ s) : Tracks c s (ds ++ [x]) e where
  opened := by rw [h.opened, Policy.opened_snoc_of_ne hx]
  loop := by rw [h.loop, Policy.opened_snoc_of_ne hx]
  remote := by rw [h.remote, Policy.peer?_snoc_of_ne hx]
  lastActive := by rw [h.lastActive, Policy.lastHeard?_snoc_of_ne hx]

theorem admitted (hclosed : c.config.policy.opened s ds = false)
    (hx : c.config.policy.opens s ds x = true) :
    Tracks c s (ds ++ [x]) { e with
      lastActive := c.age x.now, remote := x.sender, opened := true, loop := .relaying } := by
  have hopened : c.config.policy.opened s (ds ++ [x]) = true := by
    rw [Policy.opened_snoc, hx, Bool.or_true]
  have hhears := Policy.hears_of_closed hclosed (Policy.side_of_opens hx)
  constructor
  · rw [hopened]
  · rw [hopened, if_pos rfl]
  · rw [Policy.peer?_snoc_of_opens hclosed hx, Option.getD_some]
  · rw [Policy.lastHeard?_snoc, if_pos hhears, Option.getD_some]

theorem denied (h : Tracks c s ds e) (hside : x.side = s)
    (hclosed : c.config.policy.opened s ds = false) (hx : c.config.policy.opens s ds x = false) :
    Tracks c s (ds ++ [x]) { e with lastActive := c.age x.now } := by
  have hstill : c.config.policy.opened s (ds ++ [x]) = false := by
    rw [Policy.opened_snoc, hclosed, hx, Bool.or_false]
  have hhears := Policy.hears_of_closed hclosed hside
  constructor
  · rw [hstill, ← hclosed, ← h.opened]
  · rw [hstill, ← hclosed, ← h.loop]
  · rw [Policy.peer?_of_closed hstill, ← Policy.peer?_of_closed hclosed, ← h.remote]
  · rw [Policy.lastHeard?_snoc, if_pos hhears, Option.getD_some]

theorem followed (h : Tracks c s ds e) (hside : x.side = s)
    (hpeer : c.config.policy.peer? s ds = some a) (hip : x.sender.ip = a.ip) :
    Tracks c s (ds ++ [x]) { e with remote := x.sender, lastActive := c.age x.now } := by
  have hopened := Policy.opened_of_peer? hpeer
  have hhears : c.config.policy.hears s ds x = true :=
    Policy.hears_of_peer hside fun b hb => Option.some.inj (hpeer.symm.trans hb) ▸ hip
  constructor
  · rw [h.opened, Policy.opened_snoc, hopened, Bool.true_or]
  · rw [h.loop, Policy.opened_snoc, hopened, Bool.true_or]
  · rw [Policy.peer?_snoc_of_peer? hpeer, if_pos ⟨hside, hip⟩, Option.getD_some]
  · rw [Policy.lastHeard?_snoc, if_pos hhears, Option.getD_some]

theorem foreign (h : Tracks c s ds e) (hpeer : c.config.policy.peer? s ds = some a)
    (hip : x.sender.ip ≠ a.ip) : Tracks c s (ds ++ [x]) e := by
  have hopened := Policy.opened_of_peer? hpeer
  have hhears : c.config.policy.hears s ds x = false :=
    Policy.hears_of_other (.inr ⟨a, hpeer, hip⟩)
  constructor
  · rw [h.opened, Policy.opened_snoc, hopened, Bool.true_or]
  · rw [h.loop, Policy.opened_snoc, hopened, Bool.true_or]
  · rw [h.remote, Policy.peer?_snoc_of_peer? hpeer, if_neg fun hx => hip hx.2, hpeer]
  · rw [h.lastActive, Policy.lastHeard?_snoc, hhears, if_neg Bool.false_ne_true]

end Tracks

/-! ### Both ends -/

/-- A channel has come to what these datagrams say. -/
structure Attained (c : Channel) (ds : List Datagram) (d : Channel) : Prop where
  config : d.config = c.config
  createdAt : d.createdAt = c.createdAt
  ends : ∀ s, Tracks c s ds (d.endpoint s)

namespace Attained

variable (h : Attained c ds d) {now : Nat} {sender a : SocketAddr} {data : Bytes}

include h

theorem age_eq (now : Nat) : d.age now = c.age now := by
  rw [age, h.createdAt, age]

theorem loop_of_closed (hclosed : c.config.policy.opened s ds = false) :
    (d.endpoint s).loop = .authenticating := by
  rw [(h.ends s).loop, hclosed, if_neg Bool.false_ne_true]

theorem loop_of_peer (hpeer : c.config.policy.peer? s ds = some a) :
    (d.endpoint s).loop = .relaying := by
  rw [(h.ends s).loop, Policy.opened_of_peer? hpeer, if_pos rfl]

theorem remote_of_peer (hpeer : c.config.policy.peer? s ds = some a) :
    (d.endpoint s).remote = a := by
  rw [(h.ends s).remote, hpeer, Option.getD_some]

/-- Whether somebody is let in is told by what has arrived. -/
theorem accepts_eq (s : Side) (now : Nat) (sender : SocketAddr) (data : Bytes) :
    (!data.isEmpty && d.accepts s data) = c.config.policy.opens s ds ⟨s, now, sender, data⟩ := by
  have hdst : d.dst.opened = c.config.policy.opened .dst ds := (h.ends .dst).opened
  have hbeq : (s == Side.dst) = decide (s = .dst) := rfl
  simp [accepts, h.config, hdst, hbeq, Policy.opens, Policy.admits, Bool.and_assoc]

/-- Who opens an end is answered with what was taken in. -/
theorem receive_of_opens (hclosed : c.config.policy.opened s ds = false)
    (hopens : c.config.policy.opens s ds ⟨s, now, sender, data.take c.config.mtu⟩ = true) :
    d.receive s now sender data =
      (d.admitted s now sender, .echoed (data.take c.config.mtu)) := by
  rw [← h.accepts_eq, Bool.and_eq_true, Bool.not_eq_true', ← h.config] at hopens
  rw [← h.config]
  exact receive_of_admitted (h.loop_of_closed hclosed) hopens.1 hopens.2

/-- Nobody else gets through to a closed end. -/
theorem receive_of_closed (hclosed : c.config.policy.opened s ds = false)
    (hopens : c.config.policy.opens s ds ⟨s, now, sender, data.take c.config.mtu⟩ = false) :
    d.receive s now sender data = (d.touch s now, denial (data.take c.config.mtu)) := by
  rw [← h.accepts_eq, ← h.config] at hopens
  rw [← h.config]
  exact receive_of_denied (h.loop_of_closed hclosed) hopens

theorem receive_of_stranger (hpeer : c.config.policy.peer? s ds = some a)
    (hip : sender.ip ≠ a.ip) : d.receive s now sender data = (d, .dropped) :=
  receive_of_foreign (h.loop_of_peer hpeer) (by rwa [h.remote_of_peer hpeer])

/-- The peer of an open end is heard, and what it sends is sent on to the other peer unless it is
a mere sign of life. -/
theorem receive_of_heard (hpeer : c.config.policy.peer? s ds = some a) (hip : sender.ip = a.ip)
    (hread : ((d.receive s now sender data).1.endpoint s).loop ≠ .ended) :
    d.receive s now sender data =
      if (data.take c.config.mtu).length ≤ keepaliveLength then (d.followed s now sender, .ignored)
      else match c.config.policy.peer? s.other ds with
        | none => (d.followed s now sender, .dropped)
        | some target => ((d.followed s now sender).count s (data.take c.config.mtu).length,
            .forwarded target (data.take c.config.mtu)) := by
  have hreceive := receive_of_peer (h.loop_of_peer hpeer)
    (hip.trans (congrArg SocketAddr.ip (h.remote_of_peer hpeer).symm)) now data
  rw [h.config, (h.ends s.other).opened] at hreceive
  rw [hreceive] at hread ⊢
  split
  · rfl
  · rename_i hlong
    rw [if_neg hlong] at hread
    cases htarget : c.config.policy.peer? s.other ds with
    | none => rw [if_pos (Policy.closed_of_peer? htarget)]
    | some target =>
        rw [Policy.opened_of_peer? htarget, if_neg (Bool.false_ne_true ∘ Eq.symm)] at hread ⊢
        -- Without its socket the other end would have made the loop end.
        cases hheld : (d.endpoint s.other).socketHeld with
        | true => rw [if_neg (Bool.false_ne_true ∘ Eq.symm), h.remote_of_peer htarget]
        | false =>
            rw [hheld, if_pos rfl] at hread
            exact absurd (congrArg Endpoint.loop (endpoint_modify_same ..)) hread

theorem datagram (hread : ((d.receive s now sender data).1.endpoint s).loop ≠ .ended) :
    Attained c (ds ++ [⟨s, now, sender, data.take c.config.mtu⟩])
      (d.receive s now sender data).1 where
  config := (congrArg Terms.config (receive_keeps d s now sender data).1).trans h.config
  createdAt := (createdAt_receive d s now sender data).trans h.createdAt
  ends side := by
    rcases Side.eq_or_eq_other side s with rfl | rfl
    · cases hopened : c.config.policy.opened side ds with
      | true =>
          obtain ⟨a, hpeer⟩ := Option.isSome_iff_exists.mp (Policy.peer?_isSome_iff.trans hopened)
          by_cases hip : sender.ip = a.ip
          · -- Whatever becomes of the datagram, the end has followed its peer.
            have hsame : (d.receive side now sender data).1.endpoint side =
                (d.followed side now sender).endpoint side := by
              rw [h.receive_of_heard hpeer hip hread]
              split
              · rfl
              · split
                · rfl
                · exact endpoint_count ..
            rw [hsame, followed, touch, endpoint_modify_same, endpoint_modify_same, age,
              createdAt_modify, ← age, h.age_eq]
            exact (h.ends side).followed rfl hpeer hip
          · rw [h.receive_of_stranger hpeer hip]
            exact (h.ends side).foreign hpeer hip
      | false =>
          cases hopens : c.config.policy.opens side ds
              ⟨side, now, sender, data.take c.config.mtu⟩ with
          | true =>
              rw [h.receive_of_opens hopened hopens, admitted, touch, h.age_eq]
              rw [endpoint_modify_same, endpoint_modify_same]
              exact .admitted hopened hopens
          | false =>
              rw [h.receive_of_closed hopened hopens, touch, h.age_eq, endpoint_modify_same]
              exact (h.ends side).denied rfl hopened hopens
    · rw [endpoint_receive_other]
      exact (h.ends s.other).elsewhere (Side.other_ne s).symm

theorem step {e : Event} (hstarted : d.started = true) (hattended : (d.step e).Attended) :
    Attained c (ds ++ (e.taken? c.config.mtu).toList) (d.step e) := by
  cases he : e.taken? c.config.mtu with
  | some x =>
      cases e with
      | datagram s now sender data =>
          cases he
          exact h.datagram (hattended s)
      | _ => cases he
  | none =>
      refine ⟨?_, (createdAt_step d e).trans h.createdAt, fun s => ?_⟩
      · exact (congrArg Terms.config (terms_step d e)).trans h.config
      · rw [← h.config] at he
        obtain ⟨held, waiting, hend⟩ := endpoint_step hstarted he hattended s
        rw [hend, Option.toList_none, List.append_nil]
        exact (h.ends s).of_waiting held waiting

end Attained

/-- A channel that was started and is still read has come to what the datagrams say that have
arrived since, whatever else has happened to it. -/
theorem Ready.attained (hc : Ready c) (events : List Event)
    (hattended : (c.start.after events).Attended) :
    Attained c (c.intake events) (c.start.after events) := by
  induction events using List.reverseRecOn with
  | nil => exact ⟨congrArg Terms.config (terms_start c), createdAt_step c .start, hc.tracks_start⟩
  | append_singleton events e ih =>
      have hbefore := ih (hc.attended_of_append hattended)
      rw [after_snoc] at hattended ⊢
      rw [intake_snoc]
      exact hbefore.step (Ran.started ⟨events, rfl⟩ hc.started_start) hattended

/-! ## Sockets that are read -/

/-- An end that can send on what arrives goes on reading. -/
theorem loop_receive (hread : (c.endpoint s).loop ≠ .ended)
    (hheld : (c.endpoint s.other).socketHeld = true) (now : Nat) (sender : SocketAddr)
    (data : Bytes) : ((c.receive s now sender data).1.endpoint s).loop ≠ .ended := by
  have htouch : ((c.touch s now).endpoint s).loop = (c.endpoint s).loop :=
    congrArg Standing.loop (standing_touch c s s now)
  have hfollowed : ((c.followed s now sender).endpoint s).loop = (c.endpoint s).loop := by
    rw [followed, touch, endpoint_modify_same, endpoint_modify_same]
  cases hloop : (c.endpoint s).loop with
  | ended => exact absurd hloop hread
  | idle =>
      have hwaits : ((c.receive s now sender data).1.endpoint s).loop = (c.endpoint s).loop := by
        simp only [receive, hloop, endpoint_modify_same]
        split
        · rfl
        · exact hloop
      rwa [hwaits]
  | authenticating =>
      cases hopens : (!(data.take c.config.mtu).isEmpty &&
          c.accepts s (data.take c.config.mtu)) with
      | true =>
          rw [Bool.and_eq_true, Bool.not_eq_true'] at hopens
          rw [receive_of_admitted hloop hopens.1 hopens.2, admitted, endpoint_modify_same]
          show Loop.relaying ≠ .ended
          decide
      | false => rwa [receive_of_denied hloop hopens, htouch]
  | relaying =>
      by_cases hip : sender.ip = (c.endpoint s).remote.ip
      · rw [receive_of_peer hloop hip, hheld, if_neg (Bool.false_ne_true ∘ Eq.symm)]
        split
        · rwa [hfollowed]
        · split
          · rwa [hfollowed]
          · rwa [endpoint_count, hfollowed]
      · rwa [receive_of_foreign hloop hip]

theorem Attended.step {e : Event} (h : d.Attended) (hheld : ∀ s, (d.endpoint s).socketHeld = true)
    (hretire : ∀ s, e ≠ .retire s) : (d.step e).Attended := by
  intro s
  have hstanding {st : Standing} (heq : (d.step e).standing s = st)
      (hst : st.loop = .authenticating ∨ st.loop = (d.endpoint s).loop) :
      ((d.step e).endpoint s).loop ≠ .ended := by
    have hloop : ((d.step e).endpoint s).loop = st.loop := congrArg Standing.loop heq
    rw [hloop]
    rcases hst with hst | hst
    · rw [hst]
      exact nofun
    · exact hst ▸ h s
  cases e with
  | start =>
      refine hstanding (standing_start d s) ?_
      split
      · exact .inr rfl
      · exact .inl rfl
  | datagram side now sender data =>
      rcases Side.eq_or_eq_other s side with rfl | rfl
      · exact loop_receive (h s) (hheld s.other) now sender data
      · exact hstanding (standing_receive_other d side now sender data) (.inr rfl)
  | takeWaiting side => exact hstanding (standing_takeWaiting d side s) (.inr rfl)
  | poll now => exact hstanding (standing_poll d now s) (.inr rfl)
  | tick now => exact hstanding (standing_tick d s now) (.inr rfl)
  | stop => exact hstanding (standing_halt d s) (.inr rfl)
  | retire side => exact absurd rfl (hretire side)

/-- As long as a channel is not over nothing but the end of a loop keeps a socket from being
read. -/
theorem Ready.attended (hc : Ready c) (events : List Event)
    (hgoing : (c.start.after events).stopped = false) (hretire : ∀ s, .retire s ∉ events) :
    (c.start.after events).Attended := by
  induction events using List.reverseRecOn with
  | nil =>
      intro s
      rw [after_nil, (hc.tracks_start s).loop]
      split <;> exact nofun
  | append_singleton events e ih =>
      rw [after_snoc] at hgoing ⊢
      have hbefore : (c.start.after events).stopped = false :=
        Bool.eq_false_iff.mpr fun hover => by cases hgoing.symm.trans (stopped_step hover e)
      have hran : Ran c (c.start.after events) := ⟨.start :: events, rfl⟩
      refine (ih hbefore fun s hs => hretire s (List.mem_append_left _ hs)).step
        (fun s => (hran.socketHeld hbefore s).trans (hc.held s)) fun s hs => ?_
      exact hretire s (List.mem_append_right _ (List.mem_singleton.mpr hs.symm))

end PeerRelay.Channel
