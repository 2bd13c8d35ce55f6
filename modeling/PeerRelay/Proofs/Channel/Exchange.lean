import PeerRelay.Proofs.Channel.Attainment
import PeerRelay.Proofs.Relay.Frame

/-!
# What an end answers

The loop at an end sends out of both sockets: answers out of its own as long as the end is
closed, and what it passes on out of the other. In the course of a run it sends exactly what the
datagrams that have arrived tell. So each end opens at the datagram that opens it, answers every
datagram up to that one, and none after it.
-/

namespace PeerRelay.Channel

/-! ## What a loop sends -/

/-- What the loop at an end sends when something happens. -/
def sendsAt (c : Channel) (k : ChannelRef) (s : Side) : Event → List Emission
  | .datagram side now sender data =>
    if side = s then Relay.emissions k side sender (c.receive side now sender data).2 else []
  | _ => []

/-- What the loop at an end sends in the course of a run, the first of it first. -/
def sends (c : Channel) (k : ChannelRef) (s : Side) : List Event → List Emission
  | [] => []
  | e :: events => c.sendsAt k s e ++ (c.step e).sends k s events

theorem sends_append (c : Channel) (k : ChannelRef) (s : Side) (events more : List Event) :
    c.sends k s (events ++ more) = c.sends k s events ++ (c.after events).sends k s more := by
  induction events generalizing c with
  | nil => rfl
  | cons e events ih => simp [sends, ih]

theorem sends_snoc (c : Channel) (k : ChannelRef) (s : Side) (events : List Event) (e : Event) :
    c.sends k s (events ++ [e]) = c.sends k s events ++ (c.after events).sendsAt k s e := by
  simp [sends_append, sends]

namespace Policy

variable (policy : Policy)

/-- The answer of an end to a datagram, after others. An end that is closed answers what is not
empty: as it came if that opens the end, and with zeros otherwise. -/
def answer? (s : Side) (past : List Datagram) (d : Datagram) : Option Bytes :=
  if d.side = s ∧ policy.opened s past = false ∧ d.data ≠ [] then
    some (if policy.opens s past d then d.data else List.replicate d.data.length 0)
  else none

/-- Where an end passes a datagram on to, after others: what is more than a sign of life goes from
the one peer to where the other is by then, if both have been let in. -/
def target? (s : Side) (past : List Datagram) (d : Datagram) : Option SocketAddr :=
  (policy.peer? s past).bind fun own =>
    if d.side = s ∧ d.sender.ip = own.ip ∧ keepaliveLength < d.data.length then
      policy.peer? s.other past
    else none

/-- What the loop at an end sends about a datagram, after others. -/
def reaction (k : ChannelRef) (s : Side) (past : List Datagram) (d : Datagram) : List Emission :=
  ((policy.answer? s past d).map fun reply => ⟨k, s, d.sender, reply⟩).toList ++
    ((policy.target? s past d).map fun target => ⟨k, s.other, target, d.data⟩).toList

variable {policy} {s : Side} {past : List Datagram} {d : Datagram}

theorem reaction_of_ne (k : ChannelRef) (h : d.side ≠ s) : policy.reaction k s past d = [] := by
  have htarget : policy.target? s past d = none := by
    rw [target?]
    cases policy.peer? s past <;> simp [h]
  simp [reaction, answer?, htarget, h]

theorem reaction_of_closed (k : ChannelRef) (h : policy.opened s past = false)
    (hside : d.side = s) :
    policy.reaction k s past d = Relay.emissions k s d.sender
      (if policy.opens s past d then .echoed d.data else denial d.data) := by
  have htarget : policy.target? s past d = none := by
    rw [target?, peer?_of_closed h, Option.bind_none]
  rw [reaction, htarget, answer?]
  by_cases hempty : d.data = []
  · have hopens : policy.opens s past d = false := by simp [opens, admits, hempty]
    simp [hempty, hopens, denial, Relay.emissions]
  · cases hopens : policy.opens s past d <;>
      simp [h, hside, hempty, denial, Relay.emissions]

theorem reaction_of_peer (k : ChannelRef) {a : SocketAddr} (h : policy.peer? s past = some a)
    (hside : d.side = s) :
    policy.reaction k s past d =
      if d.sender.ip = a.ip ∧ keepaliveLength < d.data.length then
        ((policy.peer? s.other past).map fun target => ⟨k, s.other, target, d.data⟩).toList
      else [] := by
  have hanswer : policy.answer? s past d = none := by simp [answer?, opened_of_peer? h]
  rw [reaction, hanswer, target?, h, Option.bind_some]
  by_cases hpass : d.sender.ip = a.ip ∧ keepaliveLength < d.data.length <;> simp [hside, hpass]

/-- Out of the end's own socket go the answers, -/
theorem reaction_filter_self (k : ChannelRef) :
    (policy.reaction k s past d).filter (fun e => decide (e.side = s)) =
      ((policy.answer? s past d).map fun reply => ⟨k, s, d.sender, reply⟩).toList := by
  have hother := Side.other_ne s
  rw [reaction]
  cases policy.answer? s past d <;> cases policy.target? s past d <;> simp [hother]

/-- and out of the other what is passed on. -/
theorem reaction_filter_other (k : ChannelRef) :
    (policy.reaction k s past d).filter (fun e => decide (e.side = s.other)) =
      ((policy.target? s past d).map fun target => ⟨k, s.other, target, d.data⟩).toList := by
  have hother := (Side.other_ne s).symm
  rw [reaction]
  cases policy.answer? s past d <;> cases policy.target? s past d <;> simp [hother]

end Policy

/-! ## What is sent in the course of a run -/

variable {c d : Channel} {s : Side} {ds : List Datagram}

theorem Attained.emissions_receive (h : Attained c ds d) (k : ChannelRef) {now : Nat}
    {sender : SocketAddr} {data : Bytes}
    (hread : ((d.receive s now sender data).1.endpoint s).loop ≠ .ended) :
    Relay.emissions k s sender (d.receive s now sender data).2 =
      c.config.policy.reaction k s ds ⟨s, now, sender, data.take c.config.mtu⟩ := by
  cases hpeer : c.config.policy.peer? s ds with
  | some a =>
      rw [Policy.reaction_of_peer k hpeer rfl]
      by_cases hip : sender.ip = a.ip
      · rw [h.receive_of_heard hpeer hip hread]
        by_cases hlong : keepaliveLength < (data.take c.config.mtu).length
        · rw [if_neg (Nat.not_le_of_lt hlong), if_pos ⟨hip, hlong⟩]
          cases c.config.policy.peer? s.other ds <;> rfl
        · rw [if_pos (Nat.le_of_not_lt hlong), if_neg fun hx => hlong hx.2]
          rfl
      · rw [h.receive_of_stranger hpeer hip, if_neg fun hx => hip hx.1]
        rfl
  | none =>
      have hclosed := Policy.closed_of_peer? hpeer
      rw [Policy.reaction_of_closed k hclosed rfl]
      cases hopens : c.config.policy.opens s ds ⟨s, now, sender, data.take c.config.mtu⟩ with
      | true => rw [h.receive_of_opens hclosed hopens, if_pos rfl]
      | false => rw [h.receive_of_closed hclosed hopens, if_neg Bool.false_ne_true]

theorem Attained.sendsAt (h : Attained c ds d) (k : ChannelRef) (s : Side) {e : Event}
    (hattended : (d.step e).Attended) :
    d.sendsAt k s e = (e.taken? c.config.mtu).toList.flatMap (c.config.policy.reaction k s ds) := by
  cases e with
  | datagram side now sender data =>
      show _ = List.flatMap _ [_]
      rw [List.flatMap_singleton, Channel.sendsAt]
      split
      · rename_i hside
        subst hside
        exact h.emissions_receive k (hattended side)
      · rename_i hside
        exact (Policy.reaction_of_ne k hside).symm
  | _ => rfl

/-- Whatever happens to a channel, the loop at an end sends what the datagrams tell that have
arrived: an answer or a datagram for the other peer, one after another as they came. -/
theorem Ready.sends_eq (hc : Ready c) (k : ChannelRef) (s : Side) (events : List Event)
    (hattended : (c.start.after events).Attended) :
    c.start.sends k s events = (withPast [] (c.intake events)).flatMap fun p =>
      c.config.policy.reaction k s p.1 p.2 := by
  induction events using List.reverseRecOn with
  | nil => rfl
  | append_singleton events e ih =>
      have hbefore := hc.attended_of_append hattended
      rw [after_snoc] at hattended
      rw [sends_snoc, ih hbefore, (hc.attained events hbefore).sendsAt k s hattended, intake_snoc]
      cases e.taken? c.config.mtu with
      | none => simp
      | some x => simp [withPast_snoc]

/-! ## Answers -/

/-- An end opens at the datagram that opens it. As long as it is closed it answers every datagram
that is not empty to its sender, and afterwards none: the one that opens it with what that was,
and any other with as many zeros, by which nothing changes but when the end was active. -/
theorem answered_until_opened (hc : Ready c) (events : List Event)
    (hattended : (c.start.after events).Attended) (s : Side) :
    ((c.start.after events).endpoint s).opened = c.config.policy.opened s (c.intake events) ∧
      (∀ k, (c.start.sends k s events).filter (fun e => decide (e.side = s)) =
        (withPast [] (c.intake events)).filterMap fun p =>
          (c.config.policy.answer? s p.1 p.2).map fun reply => ⟨k, s, p.2.sender, reply⟩) ∧
      ∀ (r : Relay) k sender data, r.channel k = c.start.after events →
        c.config.policy.opened s (c.intake events) = false →
        c.config.policy.opens s (c.intake events)
            ⟨s, r.now, sender, data.take c.config.mtu⟩ = false →
          (Relay.datagram k s sender data).exec r =
            { r.modifyChannel k (·.touch s r.now) with
              sent := r.sent ++ c.config.policy.reaction k s (c.intake events)
                ⟨s, r.now, sender, data.take c.config.mtu⟩ } := by
  have h := hc.attained events hattended
  refine ⟨(h.ends s).opened, fun k => ?_, fun r k sender data hr hclosed hopens => ?_⟩
  · rw [hc.sends_eq k s events hattended, List.filter_flatMap, List.filterMap_eq_flatMap_toList]
    simp only [Policy.reaction_filter_self]
  · have hreceive := h.receive_of_closed hclosed hopens
    rw [← hr] at hreceive
    rw [Policy.reaction_of_closed k hclosed rfl, hopens, if_neg Bool.false_ne_true]
    have htouch : r.modifyChannel k (fun _ => (r.channel k).touch s r.now) =
        r.modifyChannel k (·.touch s r.now) := Relay.modifyChannel_congr rfl
    have hcount (m : Metrics) :
        Relay.countOutcome s (denial (data.take c.config.mtu)) m = m := by
      rw [denial]
      split <;> rfl
    simp only [Relay.datagram, Steps.exec_modify, hreceive, htouch, Relay.count, hcount]
    rfl

/-- The source peer greets twice. The first time is too early, and would be so again. -/
theorem answered_until_opened_pair :
    (((pair.start.after (greetings.drop 1)).endpoint .src).opened = true ∧
        (pair.start.sends 0 .src (greetings.drop 1)).filter (fun e => decide (e.side = .src)) =
          [⟨0, .src, peerAt 1 6000, [0, 0, 0]⟩, ⟨0, .src, peerAt 1 6001, [7, 7, 7]⟩]) ∧
      let early := pair.start.after [.datagram .src 1 (peerAt 1 6000) [7, 7, 7]]
      let r : Relay := { config := {}, channels := [early], now := 5000000 }
      (Relay.datagram 0 .src (peerAt 1 6001) [7, 7, 7]).exec r =
        { r with
          channels := [early.touch .src 5000000]
          sent := [⟨0, .src, peerAt 1 6001, [0, 0, 0]⟩] } := by
  constructor
  · obtain ⟨hopened, hanswers, -⟩ := answered_until_opened ready_pair (greetings.drop 1)
      (fun s => by cases s <;> decide) .src
    exact ⟨hopened.trans (by decide), (hanswers 0).trans (by decide)⟩
  · obtain ⟨-, -, hdenied⟩ := answered_until_opened ready_pair
      [.datagram .src 1 (peerAt 1 6000) [7, 7, 7]] (fun s => by cases s <;> decide) .src
    exact hdenied { config := {}, channels := [_], now := 5000000 } 0 (peerAt 1 6001) [7, 7, 7] rfl
      (by decide) (by decide)

end PeerRelay.Channel
