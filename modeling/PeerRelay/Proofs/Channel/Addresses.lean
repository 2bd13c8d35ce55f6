import PeerRelay.Proofs.Channel.Admission
import PeerRelay.Proofs.Relay.Frame

/-!
# Where datagrams go

A channel sends only to addresses that it has heard from at the very end it
sends from. Once an end is open it follows its peer to another port, and never
to another address.
-/

namespace PeerRelay.Channel

/-! ## What an end has heard -/

/-- The senders that an end hears when something happens: one, if a datagram arrives while
a loop reads the end's socket. -/
def hears (c : Channel) (s : Side) : Event → List SocketAddr
  | .datagram side _ sender _ =>
    if side = s ∧ ((c.standing s).loop = .authenticating ∨ (c.standing s).loop = .relaying) then
      [sender]
    else []
  | _ => []

/-- The senders that an end hears in the course of a run, the first of them first. -/
def heard (c : Channel) (s : Side) : List Event → List SocketAddr
  | [] => []
  | e :: events => c.hears s e ++ (c.step e).heard s events

theorem heard_append (c : Channel) (s : Side) (events more : List Event) :
    c.heard s (events ++ more) = c.heard s events ++ (c.after events).heard s more := by
  induction events generalizing c with
  | nil => rfl
  | cons e events ih => simp [heard, ih]

theorem heard_snoc (c : Channel) (s : Side) (events : List Event) (e : Event) :
    c.heard s (events ++ [e]) = c.heard s events ++ (c.after events).hears s e := by
  simp [heard_append, heard]

theorem hears_datagram {c : Channel} {s : Side}
    (hloop : (c.standing s).loop = .authenticating ∨ (c.standing s).loop = .relaying) (now : Nat)
    (sender : SocketAddr) (data : Bytes) :
    c.hears s (.datagram s now sender data) = [sender] :=
  if_pos ⟨rfl, hloop⟩

theorem hears_other (c : Channel) (side : Side) (now : Nat) (sender : SocketAddr)
    (data : Bytes) : c.hears side.other (.datagram side now sender data) = [] :=
  if_neg fun h => Side.other_ne side h.1.symm

/-! ## The peer of an open end -/

/-- The latest of a peer's address and the senders heard since that have the same IP. -/
def latest (remote : SocketAddr) (senders : List SocketAddr) : Option SocketAddr :=
  ((remote :: senders).filter (fun a => decide (a.ip = remote.ip))).getLast?

theorem latest_nil (remote : SocketAddr) : latest remote [] = some remote := by
  simp [latest]

theorem latest_same {remote sender : SocketAddr} (h : sender.ip = remote.ip) :
    latest remote [sender] = some sender := by
  simp [latest, h]

theorem latest_foreign {remote sender : SocketAddr} (h : sender.ip ≠ remote.ip) :
    latest remote [sender] = some remote := by
  simp [latest, h]

/-- What was heard earlier counts only through what was the latest then. -/
theorem latest_append {remote middle : SocketAddr} {early : List SocketAddr}
    (h : latest remote early = some middle) (hip : middle.ip = remote.ip)
    (late : List SocketAddr) : latest remote (early ++ late) = latest middle late := by
  have hmiddle : (middle :: late).filter (fun a => decide (a.ip = remote.ip)) =
      middle :: late.filter (fun a => decide (a.ip = remote.ip)) :=
    List.filter_cons_of_pos (by simpa using hip)
  unfold latest at h ⊢
  rw [← List.cons_append, List.filter_append, List.getLast?_append, h, hip, hmiddle,
    List.getLast?_cons]
  cases (late.filter fun a => decide (a.ip = remote.ip)).getLast? <;> rfl

/-- An open end takes the sender for its peer if their IPs agree, whatever else becomes of
the datagram, and keeps its peer otherwise. -/
theorem Phased.remote_step {c : Channel} (h : Phased c) {s : Side}
    (ho : (c.standing s).opened = true) (e : Event) :
    latest (c.standing s).remote (c.hears s e) = some ((c.step e).standing s).remote ∧
      ((c.step e).standing s).remote.ip = (c.standing s).remote.ip := by
  have hkeeps {st : Standing} (heq : (c.step e).standing s = st)
      (hst : st.remote = (c.standing s).remote) (hquiet : c.hears s e = []) :
      latest (c.standing s).remote (c.hears s e) = some ((c.step e).standing s).remote ∧
        ((c.step e).standing s).remote.ip = (c.standing s).remote.ip := by
    rw [heq, hst, hquiet]
    exact ⟨latest_nil _, rfl⟩
  have hloop := h.opened s ho
  cases e with
  | start =>
      refine hkeeps (standing_start c s) ?_ rfl
      split <;> rfl
  | takeWaiting side => exact hkeeps (standing_takeWaiting c side s) rfl rfl
  | poll now => exact hkeeps (standing_poll c now s) rfl rfl
  | tick now => exact hkeeps (standing_tick c s now) rfl rfl
  | stop => exact hkeeps (standing_halt c s) rfl rfl
  | retire side =>
      refine hkeeps (standing_retire c side s) ?_ rfl
      split <;> rfl
  | datagram side now sender data =>
      rcases Side.eq_or_eq_other s side with rfl | rfl
      · have hstep : (c.step (.datagram s now sender data)).standing s =
            (c.receive s now sender data).1.standing s := rfl
        have htaken := taken_receive c s now sender data
        generalize (c.receive s now sender data).2 = outcome at htaken
        rw [hstep]
        generalize (c.receive s now sender data).1.standing s = st at hstep htaken
        cases htaken with
        | waits hidle =>
            rw [hidle] at hloop
            rcases hloop with hloop | hloop <;> cases hloop
        | unread hended =>
            have hquiet : c.hears s (.datagram s now sender data) = [] := by
              simp [hears, hended]
            rw [hquiet]
            exact ⟨latest_nil _, rfl⟩
        | accepted hauth haccepts =>
            rw [hauth] at hloop
            rcases hloop with hloop | hloop <;> cases hloop
        | answered hauth houtcome =>
            rw [hauth] at hloop
            rcases hloop with hloop | hloop <;> cases hloop
        | foreign hrelay hip =>
            rw [hears_datagram (.inr hrelay)]
            exact ⟨latest_foreign hip, rfl⟩
        | followed hrelay hip hafter houtcome =>
            rw [hears_datagram (.inr hrelay)]
            exact ⟨latest_same hip, hip⟩
        | passed hrelay hip hpeer =>
            rw [hears_datagram (.inr hrelay)]
            exact ⟨latest_same hip, hip⟩
      · exact hkeeps (standing_receive_other c side now sender data) rfl
          (hears_other c side now sender data)

/-- The peer of an open end is the latest sender it heard whose IP is the peer's. -/
theorem Phased.remote_after {c : Channel} (h : Phased c) {s : Side}
    (ho : (c.standing s).opened = true) (events : List Event) :
    latest (c.standing s).remote (c.heard s events) = some ((c.after events).standing s).remote ∧
      ((c.after events).standing s).remote.ip = (c.standing s).remote.ip := by
  induction events generalizing c with
  | nil => exact ⟨latest_nil _, rfl⟩
  | cons e events ih =>
      obtain ⟨hstep, hip⟩ := h.remote_step ho e
      obtain ⟨hrest, hip'⟩ := ih (h.step e) (opened_step ho e)
      refine ⟨?_, hip'.trans hip⟩
      rw [heard, latest_append hstep hip]
      exact hrest

/-! ## Where datagrams go -/

theorem mem_of_latest {remote later : SocketAddr} {senders : List SocketAddr}
    (h : latest remote senders = some later) : later = remote ∨ later ∈ senders :=
  List.mem_cons.mp (List.mem_filter.mp (List.mem_of_getLast? h)).1

/-- The peer of an open end is someone that the end has heard. -/
theorem Fresh.remote_mem_heard {c : Channel} (hc : Fresh c) {s : Side} (events : List Event)
    (ho : ((c.after events).standing s).opened = true) :
    ((c.after events).standing s).remote ∈ c.heard s events := by
  induction events using List.reverseRecOn with
  | nil => cases (hc.opened s).symm.trans ho
  | append_singleton events e ih =>
      rw [after_snoc] at ho ⊢
      rw [heard_snoc, List.mem_append]
      -- Either the end was open and follows its peer, or the datagram at hand opens it.
      by_cases hbefore : ((c.after events).standing s).opened = true
      · obtain ⟨hlatest, -⟩ := (hc.phased.after events).remote_step hbefore e
        rcases mem_of_latest hlatest with heq | hmem
        · rw [heq]
          exact .inl (ih hbefore)
        · exact .inr hmem
      · obtain ⟨now, sender, data, rfl, hloop, -, hst⟩ :=
          eq_datagram_of_opens (Bool.eq_false_iff.mpr hbefore) ho
        rw [hst, hears_datagram (.inl hloop)]
        exact .inr (List.mem_singleton.mpr rfl)

/-- An answer goes back to the sender out of the end where the datagram arrived, and only an
end that is being read answers. -/
theorem answered_of_emitted {c : Channel} {k : ChannelRef} {side : Side} {now : Nat}
    {sender : SocketAddr} {data : Bytes} {emission : Emission}
    (hmem : emission ∈ Relay.emissions k side sender (c.receive side now sender data).2)
    (hside : emission.side = side) :
    (c.standing side).loop = .authenticating ∧ emission.target = sender := by
  have htaken := taken_receive c side now sender data
  generalize (c.receive side now sender data).1.standing side = st at htaken
  generalize (c.receive side now sender data).2 = outcome at hmem htaken
  cases htaken with
  | waits hloop => cases hmem
  | unread hloop => cases hmem
  | accepted hloop haccepts =>
      rw [List.mem_singleton.mp hmem]
      exact ⟨hloop, rfl⟩
  | answered hloop houtcome =>
      rcases houtcome with rfl | ⟨reply, rfl⟩
      · cases hmem
      · rw [List.mem_singleton.mp hmem]
        exact ⟨hloop, rfl⟩
  | foreign hloop hip => cases hmem
  | followed hloop hip hafter houtcome =>
      rcases houtcome with rfl | rfl
      · cases hmem
      · cases hmem
  | passed hloop hip hpeer =>
      rw [List.mem_singleton.mp hmem] at hside
      exact (Side.other_ne side hside).elim

/-- A datagram from a foreign address at a relaying end is counted and forgotten. -/
theorem datagram_of_foreign {r : Relay} {k : ChannelRef} {side : Side} {sender : SocketAddr}
    (hloop : ((r.channel k).endpoint side).loop = .relaying)
    (hip : sender.ip ≠ ((r.channel k).endpoint side).remote.ip) (data : Bytes) :
    (Relay.datagram k side sender data).exec r = r.count Metrics.datagramDropped := by
  have hreceive : (r.channel k).receive side r.now sender data = (r.channel k, .dropped) := by
    simp only [receive, hloop, relay, ne_eq, hip, not_false_eq_true, if_true]
  simp only [Relay.datagram, Steps.exec_modify, hreceive, Relay.modifyChannel_of_eq,
    Relay.emissions, List.append_nil]
  rfl

/-- A channel sends only to addresses that the sending end has heard, and an answer only to
the one it answers. The peer that was let in at an end is followed to other ports of its
IP only, and always to where it was heard last. Others do not even count as activity. -/
theorem address_discipline {c : Channel} (hc : Fresh c) (events : List Event) :
    (∀ k side now sender data,
      ∀ emission ∈ Relay.emissions k side sender
          ((c.after events).receive side now sender data).2,
        emission.target ∈
            c.heard emission.side (events ++ [.datagram side now sender data]) ∧
          (emission.side = side → emission.target = sender)) ∧
      (∀ s before now sender data later, events = before ++ .datagram s now sender data :: later →
        ((c.after before).endpoint s).opened = false →
        ((c.after (before ++ [.datagram s now sender data])).endpoint s).opened = true →
          ((c.after events).endpoint s).remote.ip = sender.ip ∧
            latest sender ((c.after (before ++ [.datagram s now sender data])).heard s later) =
              some ((c.after events).endpoint s).remote) ∧
      ∀ (r : Relay) k side sender data, r.channel k = c.after events →
        ((c.after events).endpoint side).loop = .relaying →
        sender.ip ≠ ((c.after events).endpoint side).remote.ip →
          (Relay.datagram k side sender data).exec r = r.count Metrics.datagramDropped := by
  refine ⟨?_, ?_, ?_⟩
  · intro k side now sender data emission hmem
    rw [heard_snoc, List.mem_append]
    rcases Side.eq_or_eq_other emission.side side with hside | hside
    · obtain ⟨hloop, htarget⟩ := answered_of_emitted hmem hside
      rw [htarget, hside, hears_datagram (.inl hloop)]
      exact ⟨.inr (List.mem_singleton.mpr rfl), fun _ => rfl⟩
    · obtain ⟨-, hpeer, htarget⟩ := passed_of_emitted hmem hside
      rw [htarget, hside]
      refine ⟨.inl (hc.remote_mem_heard events hpeer), fun hsame => ?_⟩
      exact (Side.other_ne side hsame).elim
  · rintro s before now sender data later rfl hclosed hopen
    rw [after_snoc] at hopen
    obtain ⟨now', sender', data', heq, -, -, hst⟩ := eq_datagram_of_opens hclosed hopen
    cases heq
    have hphased := (hc.phased.after before).step (.datagram s now sender data)
    obtain ⟨hlatest, hip⟩ := hphased.remote_after hopen later
    rw [hst] at hlatest hip
    rw [after_append, after_cons, after_snoc]
    exact ⟨hip, hlatest⟩
  · intro r k side sender data hr hloop hip
    rw [← hr] at hloop hip
    exact datagram_of_foreign hloop hip data

/-- The source peer goes on from another port, and a stranger tries to take its place. -/
def roaming : List Event :=
  greetings ++ [.datagram .src 4 (peerAt 1 6002) [0], .datagram .src 5 (peerAt 9 6002) [1, 2, 3]]

theorem address_discipline_roaming :
    (peerAt 1 6002 ∈
        pair.heard .src (roaming ++ [.datagram .dst 6 (peerAt 2 7000) [1, 2, 3]])) ∧
      (((pair.after roaming).endpoint .src).remote.ip = (peerAt 1 6001).ip ∧
        latest (peerAt 1 6001) ((pair.after greetings).heard .src (roaming.drop 4)) =
          some ((pair.after roaming).endpoint .src).remote) ∧
      let r : Relay := { config := {}, channels := [pair.after roaming] }
      (Relay.datagram 0 .src (peerAt 9 6002) [4, 5, 6]).exec r =
        r.count Metrics.datagramDropped := by
  obtain ⟨htarget, hremote, hforeign⟩ := address_discipline fresh_pair roaming
  refine ⟨?_, ?_, ?_⟩
  · have hmem : (⟨0, .src, peerAt 1 6002, [1, 2, 3]⟩ : Emission) ∈
        Relay.emissions 0 .dst (peerAt 2 7000)
          ((pair.after roaming).receive .dst 6 (peerAt 2 7000) [1, 2, 3]).2 := by decide
    exact (htarget _ _ _ _ _ _ hmem).1
  · exact hremote .src (greetings.take 3) 3 (peerAt 1 6001) [7, 7, 7] (roaming.drop 4) rfl
      (by decide) (by decide)
  · exact hforeign _ 0 .src (peerAt 9 6002) [4, 5, 6] rfl (by decide) (by decide)

end PeerRelay.Channel
