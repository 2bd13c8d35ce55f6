import Mathlib.Data.List.Induction
import PeerRelay.Proofs.Channel.Run

/-!
# What datagrams tell

The datagrams that have arrived at the two ends of a channel since its start tell all by
themselves who has been let in where, where the two peers are now, and when each of them was
heard last. The rules for that are stated here for a policy and a list of datagrams, without a
channel, and with each of them what another datagram changes.
-/

namespace PeerRelay.Channel

/-! ## The datagrams of a run -/

/-- A datagram as an end takes it in. -/
structure Datagram where
  side : Side
  now : Nat
  sender : SocketAddr
  data : Bytes
  deriving DecidableEq, Repr

/-- What an end takes in of what happens: of a datagram, as much as it can take. -/
def Event.taken? (mtu : Nat) : Event → Option Datagram
  | .datagram side now sender data => some ⟨side, now, sender, data.take mtu⟩
  | _ => none

/-- The datagrams of a run as the ends take them in, the first of them first. -/
def intake (c : Channel) (events : List Event) : List Datagram :=
  events.filterMap (Event.taken? c.config.mtu)

theorem intake_append (c : Channel) (events more : List Event) :
    c.intake (events ++ more) = c.intake events ++ c.intake more :=
  List.filterMap_append

theorem intake_snoc (c : Channel) (events : List Event) (e : Event) :
    c.intake (events ++ [e]) = c.intake events ++ (e.taken? c.config.mtu).toList := by
  rw [intake_append]
  cases he : e.taken? c.config.mtu <;> simp [intake, he]

/-- The elements of a list, each with those before it. -/
def withPast {α : Type} (past : List α) : List α → List (List α × α)
  | [] => []
  | x :: xs => (past, x) :: withPast (past ++ [x]) xs

theorem withPast_append {α : Type} (past xs ys : List α) :
    withPast past (xs ++ ys) = withPast past xs ++ withPast (past ++ xs) ys := by
  induction xs generalizing past with
  | nil => simp [withPast]
  | cons x xs ih => simp [withPast, ih]

theorem withPast_snoc {α : Type} (xs : List α) (x : α) :
    withPast [] (xs ++ [x]) = withPast [] xs ++ [(xs, x)] :=
  withPast_append [] xs [x]

/-! ## Who is let in where -/

namespace Policy

variable (policy : Policy)

/-- Whether the policy accepts a datagram at an end. An empty one is no attempt at all. -/
def admits (s : Side) (d : Datagram) : Bool :=
  decide (d.side = s) && !d.data.isEmpty && policy s d.data

/-- What arrives from the first datagram on that the policy accepts at an end. -/
def fromFirst (s : Side) (ds : List Datagram) : List Datagram :=
  ds.dropWhile fun d => !policy.admits s d

/-- What arrives from the datagram on that opens an end: the first that the policy accepts
there, and at the source end the first of those that arrive when the other end is open. -/
def sinceOpening : Side → List Datagram → List Datagram
  | .dst, ds => policy.fromFirst .dst ds
  | .src, ds => policy.fromFirst .src (policy.fromFirst .dst ds)

/-- Whether an end has been opened. -/
def opened (s : Side) (ds : List Datagram) : Bool := !(policy.sinceOpening s ds).isEmpty

/-- Where the peer of an end is: where the latest datagram is from that has come, since the end
is open, from the address that was let in. -/
def peer? (s : Side) (ds : List Datagram) : Option SocketAddr :=
  (policy.sinceOpening s ds).head?.bind fun first =>
    ((policy.sinceOpening s ds).filter fun d =>
      decide (d.side = s ∧ d.sender.ip = first.sender.ip)).getLast?.map (·.sender)

/-- Whether a datagram is a sign of life of the peer of an end, after others: as long as the end
is not open any datagram is, and then those from the peer's address. -/
def hears (s : Side) (past : List Datagram) (d : Datagram) : Bool :=
  decide (d.side = s) && (policy.peer? s past).all fun peer => decide (d.sender.ip = peer.ip)

/-- When there was the latest sign of life of the peer of an end. -/
def lastHeard? (s : Side) (ds : List Datagram) : Option Nat :=
  ((withPast [] ds).filter fun p => policy.hears s p.1 p.2).getLast?.map (·.2.now)

variable {policy} {s : Side} {ds : List Datagram}

theorem fromFirst_snoc (s : Side) (ds : List Datagram) (d : Datagram) :
    policy.fromFirst s (ds ++ [d]) =
      if policy.fromFirst s ds = [] then if policy.admits s d then [d] else []
      else policy.fromFirst s ds ++ [d] := by
  simp only [fromFirst, List.dropWhile_append, List.isEmpty_iff]
  cases hd : policy.admits s d <;> simp [hd]

/-- Whether a datagram opens an end, after others. -/
def opens (policy : Policy) (s : Side) (past : List Datagram) (d : Datagram) : Bool :=
  policy.admits s d && (decide (s = .dst) || policy.opened .dst past)

theorem opened_eq_false_iff : policy.opened s ds = false ↔ policy.sinceOpening s ds = [] := by
  simp [opened]

theorem sinceOpening_snoc_of_opened (h : policy.opened s ds = true) (d : Datagram) :
    policy.sinceOpening s (ds ++ [d]) = policy.sinceOpening s ds ++ [d] := by
  have hne : policy.sinceOpening s ds ≠ [] := by simpa [opened] using h
  cases s with
  | dst => exact (fromFirst_snoc .dst ds d).trans (if_neg hne)
  | src =>
      -- The source end is open, so the other end is, too.
      have hdst : policy.fromFirst .dst ds ≠ [] := by
        intro hnil
        rw [sinceOpening, hnil] at hne
        exact hne rfl
      rw [sinceOpening, fromFirst_snoc, if_neg hdst]
      exact (fromFirst_snoc .src _ d).trans (if_neg hne)

theorem sinceOpening_snoc_of_closed (h : policy.opened s ds = false) (d : Datagram) :
    policy.sinceOpening s (ds ++ [d]) = if policy.opens s ds d then [d] else [] := by
  have hnil := opened_eq_false_iff.mp h
  cases s with
  | dst =>
      refine ((fromFirst_snoc .dst ds d).trans (if_pos hnil)).trans ?_
      simp [opens]
  | src =>
      rw [sinceOpening, fromFirst_snoc]
      by_cases hdst : policy.fromFirst .dst ds = []
      · -- What opens the other end does not arrive at the source end.
        have hother : policy.opens .src ds d = false := by simp [opens, opened, sinceOpening, hdst]
        rw [if_pos hdst, hother]
        by_cases hd : policy.admits .dst d = true
        · have hside : policy.admits .src d = false := by
            have hdst : d.side = .dst := by simp_all [admits]
            simp [admits, hdst]
          simp [hd, fromFirst, hside]
        · simp [hd, fromFirst]
      · rw [if_neg hdst]
        refine ((fromFirst_snoc .src _ d).trans (if_pos hnil)).trans ?_
        simp [opens, opened, sinceOpening, hdst]

theorem opened_snoc (s : Side) (ds : List Datagram) (d : Datagram) :
    policy.opened s (ds ++ [d]) = (policy.opened s ds || policy.opens s ds d) := by
  cases h : policy.opened s ds with
  | true => simp [opened, sinceOpening_snoc_of_opened h]
  | false =>
      rw [opened, sinceOpening_snoc_of_closed h]
      cases policy.opens s ds d <;> rfl

theorem side_of_opens {d : Datagram} (h : policy.opens s ds d = true) : d.side = s := by
  simp only [opens, admits, Bool.and_eq_true, decide_eq_true_eq] at h
  exact h.1.1.1

/-! ## Where the peers are -/

theorem peer?_of_closed (h : policy.opened s ds = false) : policy.peer? s ds = none := by
  rw [peer?, opened_eq_false_iff.mp h]
  rfl

/-- The one that opens an end is its peer. -/
theorem peer?_snoc_of_opens (h : policy.opened s ds = false) {d : Datagram}
    (hd : policy.opens s ds d = true) : policy.peer? s (ds ++ [d]) = some d.sender := by
  rw [peer?, sinceOpening_snoc_of_closed h, if_pos hd]
  simp [side_of_opens hd]

/-- The peer of an open end is followed to another port of its address. -/
theorem peer?_snoc_of_peer? {a : SocketAddr} (h : policy.peer? s ds = some a) (d : Datagram) :
    policy.peer? s (ds ++ [d]) =
      some (if d.side = s ∧ d.sender.ip = a.ip then d.sender else a) := by
  have hopen : policy.opened s ds = true := by
    cases ho : policy.opened s ds with
    | true => rfl
    | false => cases (peer?_of_closed ho).symm.trans h
  obtain ⟨first, hfirst, hlast⟩ := Option.bind_eq_some_iff.mp h
  obtain ⟨last, hfound, rfl⟩ := Option.map_eq_some_iff.mp hlast
  have hip : last.sender.ip = first.sender.ip := by
    have hmem := List.mem_filter.mp (List.mem_of_getLast? hfound)
    exact (of_decide_eq_true hmem.2).2
  have hhead : (policy.sinceOpening s ds ++ [d]).head? = some first := by
    rw [List.head?_append, hfirst, Option.some_or]
  rw [peer?, sinceOpening_snoc_of_opened hopen, hhead, Option.bind_some, List.filter_append, hip]
  by_cases hd : d.side = s ∧ d.sender.ip = first.sender.ip
  · simp [hd]
  · rw [List.filter_cons_of_neg (by simpa using hd), List.filter_nil, List.append_nil, if_neg hd]
    exact hlast

theorem peer?_isSome_iff : (policy.peer? s ds).isSome = policy.opened s ds := by
  induction ds using List.reverseRecOn with
  | nil => cases s <;> rfl
  | append_singleton ds d ih =>
      rw [opened_snoc, ← ih]
      cases hpeer : policy.peer? s ds with
      | some a => simp [peer?_snoc_of_peer? hpeer]
      | none =>
          have hclosed : policy.opened s ds = false := by rw [← ih, hpeer, Option.isSome_none]
          cases hd : policy.opens s ds d with
          | true => simp [peer?_snoc_of_opens hclosed hd]
          | false =>
              have hstill : policy.opened s (ds ++ [d]) = false := by
                rw [opened_snoc, hclosed, hd, Bool.or_false]
              simp [peer?_of_closed hstill]

theorem opened_of_peer? {a : SocketAddr} (h : policy.peer? s ds = some a) :
    policy.opened s ds = true := by
  rw [← peer?_isSome_iff, h, Option.isSome_some]

theorem closed_of_peer? (h : policy.peer? s ds = none) : policy.opened s ds = false := by
  rw [← peer?_isSome_iff, h, Option.isSome_none]

/-! ## When the peers were heard -/

/-- Whatever arrives at a closed end is a sign of life, and at an open one all that comes from the
address of its peer. -/
theorem hears_of_peer {d : Datagram} (hside : d.side = s)
    (hip : ∀ a, policy.peer? s ds = some a → d.sender.ip = a.ip) : policy.hears s ds d = true := by
  rw [hears, decide_eq_true hside, Bool.true_and]
  cases hpeer : policy.peer? s ds with
  | none => rfl
  | some a => exact decide_eq_true (hip a hpeer)

theorem hears_of_closed (h : policy.opened s ds = false) {d : Datagram} (hside : d.side = s) :
    policy.hears s ds d = true :=
  hears_of_peer hside fun a ha => by cases (peer?_of_closed h).symm.trans ha

/-- Nothing is that arrives at the other end, or that an open end gets from somebody else. -/
theorem hears_of_other {d : Datagram}
    (h : d.side ≠ s ∨ ∃ a, policy.peer? s ds = some a ∧ d.sender.ip ≠ a.ip) :
    policy.hears s ds d = false := by
  rcases h with hside | ⟨a, hpeer, hip⟩
  · rw [hears, decide_eq_false hside, Bool.false_and]
  · rw [hears, hpeer]
    simp [hip]

theorem lastHeard?_snoc (s : Side) (ds : List Datagram) (d : Datagram) :
    policy.lastHeard? s (ds ++ [d]) =
      if policy.hears s ds d then some d.now else policy.lastHeard? s ds := by
  rw [lastHeard?, withPast_snoc, List.filter_append]
  cases hd : policy.hears s ds d with
  | true => simp [hd]
  | false => simp [hd, lastHeard?]

/-! ## What arrives at the other end -/

variable {d : Datagram}

theorem opened_snoc_of_ne (h : d.side ≠ s) : policy.opened s (ds ++ [d]) = policy.opened s ds := by
  have hopens : policy.opens s ds d = false := Bool.eq_false_iff.mpr fun hd => h (side_of_opens hd)
  rw [opened_snoc, hopens, Bool.or_false]

theorem peer?_snoc_of_ne (h : d.side ≠ s) : policy.peer? s (ds ++ [d]) = policy.peer? s ds := by
  cases hpeer : policy.peer? s ds with
  | some a => rw [peer?_snoc_of_peer? hpeer, if_neg fun hd => h hd.1]
  | none =>
      refine peer?_of_closed ?_
      rw [opened_snoc_of_ne h, closed_of_peer? hpeer]

theorem lastHeard?_snoc_of_ne (h : d.side ≠ s) :
    policy.lastHeard? s (ds ++ [d]) = policy.lastHeard? s ds := by
  rw [lastHeard?_snoc, hears_of_other (.inl h), if_neg Bool.false_ne_true]

end Policy

end PeerRelay.Channel
