import Mathlib.Algebra.BigOperators.Group.Finset.Piecewise
import Mathlib.Algebra.Order.BigOperators.Group.List
import Mathlib.Algebra.Order.Group.Nat
import PeerRelay.Proofs.Pool
import PeerRelay.Proofs.Relay.Arrivals
import PeerRelay.Proofs.Relay.RegistrationRuns

/-!
# The accounts of a relay's traffic

Datagrams arrive at many channels while the relay does all sorts of other things, and all of
it takes turns. Whoever has which turn, every channel's counters tell exactly how many
datagrams its ends have passed on and how long these were, and the relay's own counters are
the sums over all channels there ever were.
-/

namespace PeerRelay.Relay

open Steps

variable {as : List Arrival} {r : Relay}

/-! ## Runs -/

/-- The datagram that arrives when a call has its turn, if it brings one and has not had a turn
before. -/
def arrivalAt (calls : List Call) (p : Pool Relay Answer) (i : Nat) : List Arrival :=
  match calls[i]?, p.tasks[i]? with
  | some (.event (.datagram channel side sender data)), some ⟨[], _⟩ =>
    [{ channel, side, sender, data, found := p.state, left := (p.turn i).state }]
  | _, _ => []

/-- The datagrams that arrive in the course of so many turns, in that order. -/
def arrivals (calls : List Call) : Pool Relay Answer → List Nat → List Arrival
  | _, [] => []
  | p, i :: turns => arrivalAt calls p i ++ arrivals calls (p.turn i) turns

theorem arrivals_append (calls : List Call) (p : Pool Relay Answer) (turns others : List Nat) :
    arrivals calls p (turns ++ others) =
      arrivals calls p turns ++ arrivals calls (p.play turns) others := by
  induction turns generalizing p with
  | nil => rfl
  | cons i turns ih =>
      rw [List.cons_append, arrivals, arrivals, ih, List.append_assoc]
      rfl

/-- How far a call is: one that brings a datagram has not begun or is over, and what is left of
any other counts no datagrams. -/
inductive Underway : Call → Task Relay Answer → Prop where
  | waiting (c : ChannelRef) (side : Side) (sender : SocketAddr) (data : Bytes) :
      Underway (.event (.datagram c side sender data))
        { rest := (Call.event (.datagram c side sender data)).op }
  | finished (c : ChannelRef) (side : Side) (sender : SocketAddr) (data : Bytes)
      {past : List (Move Relay)} (hpast : past ≠ []) (answer : Answer) :
      Underway (.event (.datagram c side sender data)) { past, rest := .done answer }
  | other {call : Call} (hcall : ¬ call.IsDatagram) {t : Task Relay Answer}
      (hrest : t.rest.Each Unmetered) : Underway call t

/-- Every call is somewhere on its way. -/
def AllUnderway (calls : List Call) (p : Pool Relay Answer) : Prop :=
  ∀ (i : Nat) (t : Task Relay Answer), p.tasks[i]? = some t →
    ∃ call : Call, calls[i]? = some call ∧ Underway call t

theorem underway_op (call : Call) : Underway call { rest := call.op } := by
  by_cases hcall : call.IsDatagram
  · cases call with
    | event e =>
        cases e with
        | datagram c side sender data => exact .waiting c side sender data
        | _ => exact hcall.elim
    | _ => exact hcall.elim
  · exact .other hcall (Call.unmetered hcall)

theorem allUnderway_start (r : Relay) (calls : List Call) :
    AllUnderway calls (Pool.start r (calls.map Call.op)) := by
  intro i t ht
  rw [Pool.start, List.map_map, List.getElem?_map] at ht
  obtain ⟨call, hcall, rfl⟩ := Option.map_eq_some_iff.mp ht
  exact ⟨call, hcall, underway_op call⟩

/-- At its turn a call either has a datagram served, or counts no datagrams. -/
theorem Underway.turn {call : Call} {t : Task Relay Answer} (h : Underway call t) (r : Relay) :
    Underway call (t.turn r).1 ∧
      ((∃ c side sender data, call = .event (.datagram c side sender data) ∧ t.past = [] ∧
          (t.turn r).2 = (datagram c side sender data).exec r) ∨
        (¬ call.IsDatagram ∨ t.past ≠ []) ∧ Unmetered r (t.turn r).2) := by
  cases h with
  | waiting c side sender data =>
      refine ⟨.finished c side sender data ?_ none,
        .inl ⟨c, side, sender, data, rfl, rfl, rfl⟩⟩
      exact List.append_ne_nil_of_right_ne_nil [] (List.cons_ne_nil _ _)
  | finished c side sender data hpast answer =>
      exact ⟨.finished c side sender data hpast answer, .inr ⟨.inr hpast, .refl r⟩⟩
  | other hcall hrest =>
      obtain ⟨past, rest⟩ := t
      cases hrest with
      | done a => exact ⟨.other hcall (.done a), .inr ⟨.inl hcall, .refl r⟩⟩
      | step hact hrest =>
          exact ⟨.other hcall (hrest r), .inr ⟨.inl hcall, hact r⟩⟩

/-- A turn either counts no datagrams, or brings one. -/
theorem AllUnderway.turn {calls : List Call} {p : Pool Relay Answer} (h : AllUnderway calls p)
    (i : Nat) :
    AllUnderway calls (p.turn i) ∧
      ((arrivalAt calls p i = [] ∧ Unmetered p.state (p.turn i).state) ∨
        ∃ a : Arrival, arrivalAt calls p i = [a] ∧ a.found = p.state ∧
          a.left = (p.turn i).state ∧ a.Served) := by
  cases ht : p.tasks[i]? with
  | none =>
      have hturn := Pool.turn_of_none ht
      have hnone : arrivalAt calls p i = [] := by
        simp only [arrivalAt, ht]
        split <;> simp_all
      rw [hturn]
      exact ⟨h, .inl ⟨hnone, .refl _⟩⟩
  | some t =>
      obtain ⟨call, hcall, hunderway⟩ := h i t ht
      obtain ⟨hnext, hstep⟩ := hunderway.turn p.state
      have hturn := Pool.turn_of_getElem? ht
      refine ⟨fun j u hu => ?_, ?_⟩
      · by_cases hij : i = j
        · subst hij
          rw [Pool.getElem?_turn_self ht] at hu
          cases hu
          exact ⟨call, hcall, hnext⟩
        · rw [Pool.getElem?_turn, if_neg hij] at hu
          exact h j u hu
      · rcases hstep with ⟨c, side, sender, data, rfl, hpast, hserved⟩ | ⟨hquiet, hunmetered⟩
        · obtain ⟨past, rest⟩ := t
          cases hpast
          refine .inr ⟨⟨c, side, sender, data, p.state, (p.turn i).state⟩, ?_, rfl, rfl, ?_⟩
          · simp only [arrivalAt, hcall, ht]
          · rw [Arrival.Served, hturn]
            exact hserved
        · refine .inl ⟨?_, by rw [hturn]; exact hunmetered⟩
          simp only [arrivalAt, hcall, ht]
          split
          · rename_i hfirst hsecond
            cases hfirst
            cases hsecond
            rcases hquiet with hquiet | hquiet
            · exact absurd trivial hquiet
            · exact absurd rfl hquiet
          · rfl

/-- Whoever has which turn, the ledger is kept. -/
theorem Ledger.play {calls : List Call} {p : Pool Relay Answer} {as : List Arrival}
    (hunderway : AllUnderway calls p) (h : Ledger as p.state) (turns : List Nat) :
    Ledger (as ++ arrivals calls p turns) (p.play turns).state := by
  induction turns generalizing p as with
  | nil =>
      rw [arrivals, List.append_nil]
      exact h
  | cons i turns ih =>
      obtain ⟨hnext, hstep⟩ := hunderway.turn i
      rw [arrivals, Pool.play_cons, ← List.append_assoc]
      refine ih hnext ?_
      rcases hstep with ⟨hnone, hunmetered⟩ | ⟨a, hone, hfound, hleft, hserved⟩
      · rw [hnone, List.append_nil]
        exact h.unmetered hunmetered
      · rw [hone, ← hleft]
        exact (hfound ▸ h).snoc hserved

theorem ledger_play (limits : Config) (calls : List Call) (turns : List Nat) :
    Ledger (arrivals calls (Pool.start { config := limits } (calls.map Call.op)) turns)
      ((Pool.start { config := limits } (calls.map Call.op)).play turns).state :=
  Ledger.play (allUnderway_start _ calls) (.init limits) turns

/-! ## The accounts -/

theorem passedAt_sublist (c : ChannelRef) (side : Side) (as : List Arrival) :
    (passedAt c side as).Sublist (passedFrom side as) := by
  refine List.Sublist.flatMap (List.monotone_filter_right as fun a ha => ?_) _
  rw [decide_eq_true_eq] at ha ⊢
  exact ha.2

theorem size_le_of_sublist {ds es : List Bytes} (h : ds.Sublist es) : size ds ≤ size es :=
  (h.map List.length).sum_le_sum fun _ _ => Nat.zero_le _

theorem length_le_size {ds : List Bytes} (h : ∀ d ∈ ds, 2 < d.length) : ds.length ≤ size ds := by
  induction ds with
  | nil => exact Nat.zero_le _
  | cons d ds ih =>
      have hfirst := h d List.mem_cons_self
      have hrest := ih fun e he => h e (List.mem_cons_of_mem d he)
      rw [List.length_cons, size, List.map_cons, List.sum_cons, ← size]
      omega

/-- What all channels have passed on in one direction, channel after channel. -/
theorem sum_passedAt {f : List Bytes → Nat} (hnil : f [] = 0)
    (happend : ∀ ds es, f (ds ++ es) = f ds + f es) (side : Side) {n : Nat} {as : List Arrival}
    (h : ∀ a ∈ as, a.passed ≠ [] → a.channel < n) :
    ∑ c ∈ Finset.range n, f (passedAt c side as) = f (passedFrom side as) := by
  induction as with
  | nil => simp [passedAt, passedFrom, passedBy, hnil]
  | cons a as ih =>
      have hcons (p : Arrival → Bool) :
          f (passedBy p (a :: as)) = f (passedBy p [a]) + f (passedBy p as) := by
        rw [← happend, ← passedBy_append, List.singleton_append]
      -- What one datagram has led to was sent on in one channel, which is one of these.
      have hone : ∑ c ∈ Finset.range n, f (passedAt c side [a]) = f (passedFrom side [a]) := by
        have hat (c : ChannelRef) : f (passedAt c side [a]) =
            if a.channel = c then f (passedFrom side [a]) else 0 := by
          rw [passedAt, passedFrom, passedBy_singleton, passedBy_singleton]
          by_cases hc : a.channel = c <;> simp [hc, hnil]
        rw [Finset.sum_congr rfl fun c _ => hat c, Finset.sum_ite_eq]
        split
        · rfl
        · rename_i hout
          have hnone : a.passed = [] := by
            refine by_contra fun hpassed => hout ?_
            exact Finset.mem_range.mpr (h a List.mem_cons_self hpassed)
          rw [passedFrom, passedBy_singleton, hnone, ite_self, hnil]
      simp only [passedAt, passedFrom] at ih hone ⊢
      rw [hcons, Finset.sum_congr rfl fun c _ => hcons _, Finset.sum_add_distrib, hone,
        ih fun b hb => h b (List.mem_cons_of_mem a hb)]

/-- What is counted of these datagrams is within what a counter can hold. -/
structure InRange (as : List Arrival) : Prop where
  bytes : ∀ side, size (passedFrom side as) < 2 ^ 64
  refused : as.countP Arrival.refused < 2 ^ 64

theorem InRange.of_append {as bs : List Arrival} (h : InRange (as ++ bs)) : InRange as where
  bytes side := by
    have hall := h.bytes side
    rw [passedFrom, passedBy_append, size_append] at hall
    exact Nat.lt_of_le_of_lt (Nat.le_add_right ..) hall
  refused := by
    have hall := h.refused
    rw [List.countP_append] at hall
    exact Nat.lt_of_le_of_lt (Nat.le_add_right ..) hall

namespace Ledger

theorem length_passedFrom_le (h : Ledger as r) (side : Side) :
    (passedFrom side as).length ≤ size (passedFrom side as) := by
  refine length_le_size fun d hd => ?_
  obtain ⟨a, ha, hd⟩ := List.mem_flatMap.mp hd
  exact (h.sorted a (List.mem_filter.mp ha).1).lt_length hd

variable (h : Ledger as r) (hrange : InRange as)

include h hrange

theorem toNat_bytesFrom (c : ChannelRef) (side : Side) :
    ((r.channel c).traffic.bytesFrom side).toNat = size (passedAt c side as) := by
  have hle := size_le_of_sublist (passedAt_sublist c side as)
  have hread : (r.channel c).traffic.bytesFrom side = UInt64.ofNat (size (passedAt c side as)) :=
    congrArg Prod.fst (h.flow c side)
  rw [hread, UInt64.toNat_ofNat_of_lt' (Nat.lt_of_le_of_lt hle (hrange.bytes side))]

theorem toNat_packetsFrom (c : ChannelRef) (side : Side) :
    ((r.channel c).traffic.packetsFrom side).toNat = (passedAt c side as).length := by
  have hle := Nat.le_trans (passedAt_sublist c side as).length_le (h.length_passedFrom_le side)
  have hread : (r.channel c).traffic.packetsFrom side =
      UInt64.ofNat (passedAt c side as).length := congrArg Prod.snd (h.flow c side)
  rw [hread, UInt64.toNat_ofNat_of_lt' (Nat.lt_of_le_of_lt hle (hrange.bytes side))]

theorem toNat_relayed_bytesFrom (side : Side) :
    (r.metrics.relayed.bytesFrom side).toNat =
      ∑ c ∈ Finset.range r.channels.length, ((r.channel c).traffic.bytesFrom side).toNat := by
  have hread : r.metrics.relayed.bytesFrom side = UInt64.ofNat (size (passedFrom side as)) :=
    congrArg Prod.fst (h.total side)
  rw [hread, UInt64.toNat_ofNat_of_lt' (hrange.bytes side),
    Finset.sum_congr rfl fun c _ => h.toNat_bytesFrom hrange c side,
    sum_passedAt (f := size) rfl size_append side h.known]

theorem toNat_relayed_packetsFrom (side : Side) :
    (r.metrics.relayed.packetsFrom side).toNat =
      ∑ c ∈ Finset.range r.channels.length, ((r.channel c).traffic.packetsFrom side).toNat := by
  have hread : r.metrics.relayed.packetsFrom side = UInt64.ofNat (passedFrom side as).length :=
    congrArg Prod.snd (h.total side)
  have hlt := Nat.lt_of_le_of_lt (h.length_passedFrom_le side) (hrange.bytes side)
  rw [hread, UInt64.toNat_ofNat_of_lt' hlt,
    Finset.sum_congr rfl fun c _ => h.toNat_packetsFrom hrange c side,
    sum_passedAt (f := List.length) rfl (fun _ _ => List.length_append) side h.known]

end Ledger

/-- A relay on which calls have had so many turns. -/
def played (limits : Config) (calls : List Call) (turns : List Nat) : Relay :=
  ((Pool.start { config := limits } (calls.map Call.op)).play turns).state

/-- The datagrams that have arrived on it. -/
def arrived (limits : Config) (calls : List Call) (turns : List Nat) : List Arrival :=
  arrivals calls (Pool.start { config := limits } (calls.map Call.op)) turns

/-- What the counters of a relay tell of the datagrams that have arrived. -/
structure TrafficAccounted (limits : Config) (calls : List Call) (turns : List Nat) : Prop where
  /-- A channel's bytes in a direction are those that the loop at the one end has sent out of
  the socket of the other, -/
  bytes : ∀ c side, (((played limits calls turns).channel c).traffic.bytesFrom side).toNat =
    size (passedAt c side (arrived limits calls turns))
  /-- and its packets are as many as it has sent. -/
  packets : ∀ c side, (((played limits calls turns).channel c).traffic.packetsFrom side).toNat =
    (passedAt c side (arrived limits calls turns)).length
  /-- Neither ever was greater than it is. -/
  grown : ∀ before later, turns = before ++ later → ∀ c side,
    ((played limits calls before).channel c).traffic.bytesFrom side ≤
        ((played limits calls turns).channel c).traffic.bytesFrom side ∧
      ((played limits calls before).channel c).traffic.packetsFrom side ≤
        ((played limits calls turns).channel c).traffic.packetsFrom side
  /-- The relay's own counters are the sums of those of all channels that were ever made. -/
  totalBytes : ∀ side, ((played limits calls turns).metrics.relayed.bytesFrom side).toNat =
    ∑ c ∈ Finset.range (played limits calls turns).channels.length,
      (((played limits calls turns).channel c).traffic.bytesFrom side).toNat
  totalPackets : ∀ side, ((played limits calls turns).metrics.relayed.packetsFrom side).toNat =
    ∑ c ∈ Finset.range (played limits calls turns).channels.length,
      (((played limits calls turns).channel c).traffic.packetsFrom side).toNat
  /-- The datagrams that open ends have refused are those that were dropped. -/
  dropped : (played limits calls turns).metrics.dropped.toNat =
    (arrived limits calls turns).countP Arrival.refused
  /-- Each datagram is passed on once, or refused, or not counted at all. -/
  sorted : ∀ a ∈ arrived limits calls turns, a.Sorted
  /-- What an end is sent before it is open, and signs of life from its peer, are not counted. -/
  silent : ∀ a ∈ arrived limits calls turns,
    (a.met.endpoint a.side).loop ≠ .relaying ∨
        a.sender.ip = (a.met.endpoint a.side).remote.ip ∧ a.taken.length ≤ 2 →
      a.passed = [] ∧ a.refused = false ∧ a.left.metrics = a.found.metrics ∧
        ∀ c, (a.left.channel c).traffic = (a.found.channel c).traffic

/-- However many channels there are, and whatever else goes on at the same time, every datagram
is accounted for, as long as the counters do not overflow. -/
theorem traffic_accounted (limits : Config) (calls : List Call) (turns : List Nat)
    (hrange : InRange (arrived limits calls turns)) : TrafficAccounted limits calls turns := by
  have hledger : Ledger (arrived limits calls turns) (played limits calls turns) :=
    ledger_play limits calls turns
  refine ⟨hledger.toNat_bytesFrom hrange, hledger.toNat_packetsFrom hrange, ?_,
    hledger.toNat_relayed_bytesFrom hrange, hledger.toNat_relayed_packetsFrom hrange, ?_,
    hledger.sorted, fun a ha hquiet => ?_⟩
  · rintro before later rfl c side
    have hbefore : Ledger (arrived limits calls before) (played limits calls before) :=
      ledger_play limits calls before
    obtain ⟨rest, hrest⟩ : ∃ rest, arrived limits calls (before ++ later) =
        arrived limits calls before ++ rest := ⟨_, arrivals_append ..⟩
    have hrange' : InRange (arrived limits calls before) := (hrest ▸ hrange).of_append
    have hsplit : passedAt c side (arrived limits calls (before ++ later)) =
        passedAt c side (arrived limits calls before) ++ passedAt c side rest := by
      rw [hrest, passedAt, passedBy_append]
    constructor
    · rw [UInt64.le_iff_toNat_le, hbefore.toNat_bytesFrom hrange', hledger.toNat_bytesFrom hrange,
        hsplit, size_append]
      exact Nat.le_add_right ..
    · rw [UInt64.le_iff_toNat_le, hbefore.toNat_packetsFrom hrange',
        hledger.toNat_packetsFrom hrange, hsplit, List.length_append]
      exact Nat.le_add_right ..
  · rw [hledger.dropped, UInt64.toNat_ofNat_of_lt' hrange.refused]
  · cases hledger.sorted a ha with
    | uncounted _ hrefused hpassed htraffic hmetrics =>
        exact ⟨hpassed, hrefused, hmetrics, htraffic⟩
    | passed hpasses =>
        simp only [Channel.passes, Bool.and_eq_true, decide_eq_true_eq] at hpasses
        obtain ⟨⟨⟨⟨hloop, -⟩, hlong⟩, -⟩, -⟩ := hpasses
        rcases hquiet with hclosed | ⟨-, hshort⟩
        · exact absurd hloop hclosed
        · exact absurd hlong (Nat.not_lt_of_le hshort)
    | refused _ hrefused =>
        simp only [Arrival.refused, Channel.refuses, Bool.and_eq_true, Bool.or_eq_true,
          decide_eq_true_eq] at hrefused
        obtain ⟨hloop, hforeign | ⟨hlong, -⟩⟩ := hrefused
        all_goals rcases hquiet with hclosed | ⟨hip, hshort⟩
        · exact absurd hloop hclosed
        · exact absurd hip hforeign
        · exact absurd hloop hclosed
        · exact absurd hlong (Nat.not_lt_of_le hshort)

/-- Two clients are joined. Each opens its end with a byte, the first then sends four bytes and
the other a sign of life and three bytes, and somebody else sends one. -/
def exchange : List Call :=
  let client (port : UInt16) : SocketAddr := ⟨.v4 ⟨192, 0, 2, 1⟩, port, 0⟩
  linked.map .event ++
    [.event (.datagram 0 .dst (client 5000) [1]),
      .event (.datagram 0 .src (client 5001) [1]),
      .event (.datagram 0 .src (client 5001) [1, 2, 3, 4]),
      .event (.datagram 0 .dst ⟨.v4 ⟨198, 51, 100, 7⟩, 5000, 0⟩ [1]),
      .event (.datagram 0 .dst (client 5000) [0, 0]),
      .event (.datagram 0 .dst (client 5002) [7, 8, 9])]

/-- One call after another, each with more turns than it needs. -/
def exchangeTurns : List Nat := (List.range 11).flatMap (List.replicate 20)

theorem traffic_accounted_exchange :
    (arrived {} exchange exchangeTurns).map (fun a => (a.passed, a.refused)) =
        [([], false), ([], false), ([[1, 2, 3, 4]], false), ([], true), ([], false),
          ([[7, 8, 9]], false)] ∧
      InRange (arrived {} exchange exchangeTurns) ∧ TrafficAccounted {} exchange exchangeTurns := by
  have hrange : InRange (arrived {} exchange exchangeTurns) := by
    refine ⟨fun side => ?_, by decide +kernel⟩
    cases side <;> decide +kernel
  exact ⟨by decide +kernel, hrange, traffic_accounted {} exchange exchangeTurns hrange⟩

end PeerRelay.Relay
