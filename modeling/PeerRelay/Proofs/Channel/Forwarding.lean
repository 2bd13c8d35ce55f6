import PeerRelay.Proofs.Channel.Exchange

/-!
# What an end passes on

What goes out of the other socket of a channel is a selection from what arrives at an end, in
the same order: what the end's peer has sent since both ends are open, signs of life aside. It
goes to where the other peer was heard last, so a peer that moves to another port gets there all
that is sent from then on, and nothing that was sent before.
-/

namespace PeerRelay.Channel

theorem mem_withPast {α : Type} {past xs : List α} {p : List α × α} (h : p ∈ withPast past xs) :
    ∃ before later, p.1 = past ++ before ∧ xs = before ++ p.2 :: later := by
  induction xs generalizing past with
  | nil => cases h
  | cons x xs ih =>
      rcases List.mem_cons.mp h with rfl | h
      · exact ⟨[], xs, by simp, rfl⟩
      · obtain ⟨before, later, hpast, rfl⟩ := ih h
        exact ⟨x :: before, later, by simp [hpast], rfl⟩

/-- A peer that is heard from no other port stays where it is. -/
theorem Policy.peer?_append {policy : Policy} {s : Side} {ds : List Datagram} {a : SocketAddr}
    (h : policy.peer? s ds = some a) {more : List Datagram}
    (hsame : ∀ d ∈ more, d.side = s → d.sender.ip = a.ip → d.sender = a) :
    policy.peer? s (ds ++ more) = some a := by
  induction more using List.reverseRecOn with
  | nil => rwa [List.append_nil]
  | append_singleton more d ih =>
      have hbefore := ih fun x hx => hsame x (List.mem_append_left _ hx)
      rw [← List.append_assoc, peer?_snoc_of_peer? hbefore]
      split
      · rename_i hd
        rw [hsame d (List.mem_append_right _ (List.mem_singleton.mpr rfl)) hd.1 hd.2]
      · rfl

theorem Policy.peer?_of_target? {policy : Policy} {s : Side} {past : List Datagram} {d : Datagram}
    {target : SocketAddr} (h : policy.target? s past d = some target) :
    policy.peer? s.other past = some target := by
  obtain ⟨own, -, htarget⟩ := Option.bind_eq_some_iff.mp h
  split at htarget
  · exact htarget
  · cases htarget

variable {c : Channel} {s : Side}

/-- What is sent later goes by what arrives later, after everything before. -/
theorem Ready.sends_later (hc : Ready c) (k : ChannelRef) (s : Side) (events later : List Event)
    (hattended : (c.start.after (events ++ later)).Attended) :
    (c.start.after events).sends k s later =
      (withPast (c.intake events) (c.intake later)).flatMap fun p =>
        c.config.policy.reaction k s p.1 p.2 := by
  have hall := hc.sends_eq k s (events ++ later) hattended
  have hearly := hc.sends_eq k s events (hc.attended_of_append hattended)
  rw [sends_append, intake_append, withPast_append, List.flatMap_append, hearly] at hall
  exact List.append_cancel_left hall

/-- What an end passes on in the course of a run. -/
structure Forwards (c : Channel) (events : List Event) (s : Side) : Prop where
  /-- An end is open when its peer is known, and it takes its peer to be where that was heard
  last. -/
  peers : ∀ side, ((c.start.after events).endpoint side).opened =
      (c.config.policy.peer? side (c.intake events)).isSome ∧
    ∀ a, c.config.policy.peer? side (c.intake events) = some a →
      ((c.start.after events).endpoint side).remote = a
  /-- Out of the other socket goes each datagram that has a target, once, as it came, and one
  after another in the order in which they came, -/
  passed : ∀ k, (c.start.sends k s events).filter (fun e => decide (e.side = s.other)) =
    (withPast [] (c.intake events)).filterMap fun p =>
      (c.config.policy.target? s p.1 p.2).map fun target => ⟨k, s.other, target, p.2.data⟩
  /-- and that socket has the address that it always had. -/
  relay : ∀ side, ((c.start.after events).endpoint side).relay = (c.endpoint side).relay
  /-- From the moment on at which the other peer is heard from some port, and as long as it is
  heard from no other, everything goes there; what was sent before is not touched. -/
  redirected : ∀ before now sender data later,
    events = before ++ .datagram s.other now sender data :: later →
    ∀ a, c.config.policy.peer? s.other (c.intake before) = some a → sender.ip = a.ip →
    (∀ d ∈ c.intake later, d.side = s.other → d.sender.ip = sender.ip → d.sender = sender) →
      ∀ k, ∃ late, c.start.sends k s events = c.start.sends k s before ++ late ∧
        ∀ e ∈ late, e.side = s.other → e.target = sender

/-- In every run, as long as both sockets are read, an end passes on exactly what it should. -/
theorem relayed_in_order (hc : Ready c) (events : List Event)
    (hattended : (c.start.after events).Attended) (s : Side) : Forwards c events s := by
  have h := hc.attained events hattended
  refine ⟨fun side => ⟨?_, fun a => h.remote_of_peer⟩, fun k => ?_, fun side => ?_, ?_⟩
  · rw [(h.ends side).opened, Policy.peer?_isSome_iff]
  · rw [hc.sends_eq k s events hattended, List.filter_flatMap, List.filterMap_eq_flatMap_toList]
    simp only [Policy.reaction_filter_other]
  · have hran : Ran c (c.start.after events) := ⟨.start :: events, rfl⟩
    exact congrFun (congrArg Terms.relay hran.terms_eq) side
  · rintro before now sender data later rfl a hpeer hip hsame k
    have hsplit : before ++ .datagram s.other now sender data :: later =
        (before ++ [.datagram s.other now sender data]) ++ later := by simp
    have hmoved : c.config.policy.peer? s.other
        (c.intake (before ++ [.datagram s.other now sender data])) = some sender := by
      rw [intake_append]
      exact (Policy.peer?_snoc_of_peer? hpeer _).trans (congrArg some (if_pos ⟨rfl, hip⟩))
    refine ⟨(c.start.after (before ++ [.datagram s.other now sender data])).sends k s later, ?_,
      fun e he hside => ?_⟩
    · rw [hsplit, sends_append, sends_snoc, sendsAt, if_neg (Side.other_ne s), List.append_nil]
    · rw [hsplit] at hattended
      rw [hc.sends_later k s _ later hattended] at he
      obtain ⟨p, hp, he⟩ := List.mem_flatMap.mp he
      obtain ⟨early, rest, hpast, hlater⟩ := mem_withPast hp
      have htarget : c.config.policy.peer? s.other p.1 = some sender := by
        rw [hpast]
        refine Policy.peer?_append hmoved fun d hd => hsame d ?_
        rw [hlater]
        exact List.mem_append_left _ hd
      have hpassed : e ∈ (c.config.policy.reaction k s p.1 p.2).filter
          (fun e => decide (e.side = s.other)) :=
        List.mem_filter.mpr ⟨he, decide_eq_true hside⟩
      rw [Policy.reaction_filter_other, Option.mem_toList] at hpassed
      obtain ⟨target, hfound, rfl⟩ := Option.map_eq_some_iff.mp hpassed
      exact Option.some.inj ((Policy.peer?_of_target? hfound).symm.trans htarget)

/-- Both peers are let in, and the source peer sends to the other before and after that has moved
to another port with a mere sign of life. -/
def moving : List Event :=
  greetings.drop 1 ++ [.datagram .src 4 (peerAt 1 6001) [1, 2, 3],
    .datagram .dst 5 (peerAt 2 7001) [0],
    .datagram .src 6 (peerAt 9 6001) [4, 4, 4], .datagram .src 7 (peerAt 1 6002) [5, 6, 7, 8]]

theorem relayed_in_order_moving :
    (pair.start.sends 0 .src moving).filter (fun e => decide (e.side = .dst)) =
        [⟨0, .dst, peerAt 2 7000, [1, 2, 3]⟩, ⟨0, .dst, peerAt 2 7001, [5, 6, 7, 8]⟩] ∧
      ((pair.start.after moving).dst.opened = true ∧
        (pair.start.after moving).dst.remote = peerAt 2 7001) ∧
      ∃ late, pair.start.sends 0 .src moving = pair.start.sends 0 .src (moving.take 4) ++ late ∧
        ∀ e ∈ late, e.side = .dst → e.target = peerAt 2 7001 := by
  have h := relayed_in_order ready_pair moving (fun s => by cases s <;> decide) .src
  refine ⟨(h.passed 0).trans (by decide), ⟨(h.peers .dst).1.trans (by decide), ?_⟩, ?_⟩
  · exact (h.peers .dst).2 _ (by decide)
  · exact h.redirected (moving.take 4) 5 (peerAt 2 7001) [0] (moving.drop 5) rfl (peerAt 2 7000)
      (by decide) rfl (by decide) 0

end PeerRelay.Channel
