import Mathlib.Data.List.Induction
import PeerRelay.Proofs.Channel.Run
import PeerRelay.Relay.Traffic

/-!
# Both peers are let in before anything is relayed

Each end of a channel is opened by a datagram of its own peer, in any order of
things, and nothing goes from one end out of the other before both are open.
-/

namespace PeerRelay.Channel

/-- An end was opened in the course of a run, by a datagram that arrived there and that the
policy accepted. -/
def LetIn (c : Channel) (events : List Event) (s : Side) : Prop :=
  ∃ before now sender data later,
    events = before ++ .datagram s now sender data :: later ∧
      ((c.after before).endpoint s).opened = false ∧
      c.config.policy s (data.take c.config.mtu) = true ∧
      ((c.after (before ++ [.datagram s now sender data])).endpoint s).opened = true

theorem LetIn.append {c : Channel} {events : List Event} {s : Side} (h : LetIn c events s)
    (more : List Event) : LetIn c (events ++ more) s := by
  obtain ⟨before, now, sender, data, later, rfl, hrest⟩ := h
  exact ⟨before, now, sender, data, later ++ more, by simp, hrest⟩

/-- An end that is open was opened in the course of the run. -/
theorem Fresh.letIn {c : Channel} (hc : Fresh c) {s : Side} (events : List Event)
    (ho : ((c.after events).endpoint s).opened = true) : LetIn c events s := by
  induction events using List.reverseRecOn with
  | nil => cases (hc.opened s).symm.trans ho
  | append_singleton events e ih =>
      by_cases hbefore : ((c.after events).standing s).opened = true
      · exact (ih hbefore).append [e]
      · have hclosed := Bool.eq_false_iff.mpr hbefore
        rw [after_snoc] at ho
        obtain ⟨now, sender, data, rfl, -, haccepts, -⟩ := eq_datagram_of_opens hclosed ho
        rw [accepts, config_after] at haccepts
        refine ⟨events, now, sender, data, [], rfl, hclosed, ?_, ?_⟩
        · exact (Bool.and_eq_true_iff.mp haccepts).1
        · rw [after_snoc]
          exact ho

/-- What goes out of the other end was passed on by an end that is relaying, and finds the
other end open. -/
theorem passed_of_emitted {c : Channel} {k : ChannelRef} {side : Side} {now : Nat}
    {sender : SocketAddr} {data : Bytes} {emission : Emission}
    (hmem : emission ∈ Relay.emissions k side sender (c.receive side now sender data).2)
    (hside : emission.side = side.other) :
    (c.standing side).loop = .relaying ∧ (c.standing side.other).opened = true ∧
      emission.target = (c.standing side.other).remote := by
  have htaken := taken_receive c side now sender data
  generalize (c.receive side now sender data).1.standing side = st at htaken
  generalize (c.receive side now sender data).2 = outcome at hmem htaken
  have hecho {reply : Bytes} (hmem : emission ∈ Relay.emissions k side sender (.echoed reply)) :
      False := by
    rw [List.mem_singleton.mp hmem] at hside
    exact Side.other_ne side hside.symm
  cases htaken with
  | waits hloop => cases hmem
  | unread hloop => cases hmem
  | accepted hloop haccepts => exact (hecho hmem).elim
  | answered hloop houtcome =>
      rcases houtcome with rfl | ⟨reply, rfl⟩
      · cases hmem
      · exact (hecho hmem).elim
  | foreign hloop hip => cases hmem
  | followed hloop hip hafter houtcome =>
      rcases houtcome with rfl | rfl
      · cases hmem
      · cases hmem
  | passed hloop hip hpeer =>
      rw [List.mem_singleton.mp hmem]
      exact ⟨hloop, hpeer, rfl⟩

/-- Whenever a datagram that arrived at one end goes out of the other end's socket, both
ends are open, each by a datagram that arrived there before and that the policy accepted.
The source end is never open without the other, and an open end stays open. -/
theorem relayed_only_between_open_ends {c : Channel} (hc : Fresh c) (events : List Event) :
    (∀ k side now sender data,
      ∀ emission ∈ Relay.emissions k side sender
          ((c.after events).receive side now sender data).2,
        emission.side = side.other →
          ∀ s, ((c.after events).endpoint s).opened = true ∧ LetIn c events s) ∧
      ((c.after events).src.opened = true → (c.after events).dst.opened = true) ∧
      ∀ s, ((c.after events).endpoint s).opened = true →
        ∀ more, ((c.after (events ++ more)).endpoint s).opened = true := by
  have hphased := hc.phased.after events
  refine ⟨?_, hphased.src_after_dst, fun s ho more => ?_⟩
  · intro k side now sender data emission hmem hside s
    obtain ⟨hloop, hpeer, -⟩ := passed_of_emitted hmem hside
    have hopen : ((c.after events).standing s).opened = true := by
      rcases Side.eq_or_eq_other s side with rfl | rfl
      · exact hphased.relaying s hloop
      · exact hpeer
    exact ⟨hopen, hc.letIn events hopen⟩
  · rw [after_append]
    exact opened_after ho more

/-- The address of one of two peers. -/
def peerAt (last : UInt8) (port : UInt16) : SocketAddr := ⟨.v4 ⟨198, 51, 100, last⟩, port, 0⟩

/-- A channel between two peers. -/
def pair : Channel :=
  let relayAt (port : UInt16) : SocketAddr := ⟨.v4 ⟨192, 0, 2, 1⟩, port, 0⟩
  { id := 1
    config := {}
    src := { session := 0, sessionId := 1000, relay := relayAt 40000, remote := peerAt 1 0 }
    dst := { session := 1, sessionId := 1001, relay := relayAt 40001, remote := peerAt 2 0 } }

/-- The source peer is let in at the second attempt, when the other peer has been let in. -/
def greetings : List Event :=
  [.start, .datagram .src 1 (peerAt 1 6000) [7, 7, 7], .datagram .dst 2 (peerAt 2 7000) [7, 7, 7],
    .datagram .src 3 (peerAt 1 6001) [7, 7, 7]]

theorem fresh_pair : Fresh pair :=
  ⟨rfl, fun side => by cases side <;> rfl, fun side => by cases side <;> rfl⟩

theorem relayed_between_pair :
    (⟨0, .dst, peerAt 2 7000, [1, 2, 3]⟩ : Emission) ∈ Relay.emissions 0 .src (peerAt 1 6001)
        ((pair.after greetings).receive .src 4 (peerAt 1 6001) [1, 2, 3]).2 ∧
      ∀ s, ((pair.after greetings).endpoint s).opened = true ∧ LetIn pair greetings s := by
  have hmem : (⟨0, .dst, peerAt 2 7000, [1, 2, 3]⟩ : Emission) ∈
      Relay.emissions 0 .src (peerAt 1 6001)
        ((pair.after greetings).receive .src 4 (peerAt 1 6001) [1, 2, 3]).2 := by decide
  obtain ⟨hrelayed, -⟩ := relayed_only_between_open_ends fresh_pair greetings
  exact ⟨hmem, hrelayed _ _ _ _ _ _ hmem rfl⟩

end PeerRelay.Channel
