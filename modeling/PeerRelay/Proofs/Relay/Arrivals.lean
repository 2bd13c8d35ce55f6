import Mathlib.Algebra.Group.Prod
import Mathlib.Algebra.GroupWithZero.Nat
import PeerRelay.Proofs.Channel.Run
import PeerRelay.Proofs.Relay.Metering

/-!
# Datagrams that arrive, and a ledger of them

A datagram that arrives at an end of a channel is either passed on once, or refused, or not
counted at all. A ledger has booked all datagrams of some list: each channel's counters, and
the relay's own, read what was passed on of them and how many were refused.
-/

namespace PeerRelay

open Steps

/-- What an end has passed on of a datagram. -/
def Channel.Outcome.passed : Channel.Outcome → List Bytes
  | .forwarded _ data => [data]
  | _ => []

namespace Relay

/-! ## Datagrams that arrive -/

/-- A datagram that an end of a channel was given, with the relay as the end found and left
it. -/
structure Arrival where
  channel : ChannelRef
  side : Side
  sender : SocketAddr
  data : Bytes
  found : Relay
  left : Relay

namespace Arrival

/-- The channel as the datagram met it. -/
def met (a : Arrival) : Channel := a.found.channel a.channel

/-- What the end took in of the datagram. -/
def taken (a : Arrival) : Bytes := a.data.take a.met.config.mtu

/-- What the end has then sent out of the socket of the channel's other end. -/
def passed (a : Arrival) : List Bytes :=
  ((a.left.sent.drop a.found.sent.length).filter fun e =>
    decide (e.channel = a.channel ∧ e.side = a.side.other)).map Emission.data

/-- Whether the end, which was open already, refused the datagram. -/
def refused (a : Arrival) : Bool := a.met.refuses a.side a.sender a.taken

/-- What becomes of a datagram, and what is counted of it: it is of one kind, and of one only. -/
inductive Sorted (a : Arrival) : Prop where
  | passed (hpasses : a.met.passes a.side a.sender a.taken = true) (hrefused : a.refused = false)
      (hpassed : a.passed = [a.taken]) (hlt : a.channel < a.found.channels.length)
      (htraffic : ∀ c, (a.left.channel c).traffic =
        if a.channel = c then (a.found.channel c).traffic.counted a.side a.taken.length
        else (a.found.channel c).traffic)
      (hrelayed : a.left.metrics.relayed =
        a.found.metrics.relayed.counted a.side a.taken.length)
      (hdropped : a.left.metrics.dropped = a.found.metrics.dropped)
  | refused (hpasses : a.met.passes a.side a.sender a.taken = false) (hrefused : a.refused = true)
      (hpassed : a.passed = [])
      (htraffic : ∀ c, (a.left.channel c).traffic = (a.found.channel c).traffic)
      (hmetrics : a.left.metrics = a.found.metrics.datagramDropped)
  | uncounted (hpasses : a.met.passes a.side a.sender a.taken = false)
      (hrefused : a.refused = false) (hpassed : a.passed = [])
      (htraffic : ∀ c, (a.left.channel c).traffic = (a.found.channel c).traffic)
      (hmetrics : a.left.metrics = a.found.metrics)

/-- The relay has done what it does about a datagram. -/
def Served (a : Arrival) : Prop :=
  a.left = (datagram a.channel a.side a.sender a.data).exec a.found

variable {a : Arrival}

theorem Served.length (h : a.Served) : a.left.channels.length = a.found.channels.length := by
  rw [h]
  exact List.length_modify ..

/-- Of what leaves the sockets, only what was passed on leaves that of the other end. -/
theorem Served.passed_eq (h : a.Served) :
    a.passed = (a.met.receive a.side a.found.now a.sender a.data).2.passed := by
  have hsent : a.left.sent = a.found.sent ++ emissions a.channel a.side a.sender
      (a.met.receive a.side a.found.now a.sender a.data).2 := by
    rw [h]
    rfl
  have hother := Side.other_ne a.side
  rw [passed, hsent, List.drop_left]
  cases (a.met.receive a.side a.found.now a.sender a.data).2 with
  | ignored | dropped => rfl
  | echoed data => simp [emissions, hother.symm, Channel.Outcome.passed]
  | forwarded target data => simp [emissions, Channel.Outcome.passed]

theorem Served.traffic (h : a.Served) (c : ChannelRef) : (a.left.channel c).traffic =
    if a.channel = c ∧ c < a.found.channels.length then
      (a.met.receive a.side a.found.now a.sender a.data).1.traffic
    else (a.found.channel c).traffic := by
  rw [h]
  exact (congrArg Channel.traffic (channel_modifyChannel ..)).trans (apply_ite ..)

/-- A channel that is not there passes nothing on. -/
theorem lt_of_passes (h : a.met.passes a.side a.sender a.taken = true) :
    a.channel < a.found.channels.length := by
  refine Nat.lt_of_not_le fun hle => ?_
  have hvacant : a.met = .vacant := channel_of_le hle
  have hloop : (Channel.vacant.endpoint a.side).loop ≠ .relaying := by
    cases a.side <;> exact nofun
  simp [hvacant, Channel.passes, hloop] at h

theorem Served.sorted (h : a.Served) : a.Sorted := by
  have hmetered := Channel.metered_receive a.met a.side a.found.now a.sender a.data
  have hmetrics : a.left.metrics =
      countOutcome a.side (a.met.receive a.side a.found.now a.sender a.data).2
        a.found.metrics := by
    rw [h]
    rfl
  have htraffic := h.traffic
  have hpassed := h.passed_eq
  generalize (a.met.receive a.side a.found.now a.sender a.data).1.traffic = traffic at *
  generalize (a.met.receive a.side a.found.now a.sender a.data).2 = outcome at *
  -- A channel that counts nothing has the counters it had, whether it is there or not.
  have hsame (hc : traffic = a.met.traffic) (c : ChannelRef) :
      (a.left.channel c).traffic = (a.found.channel c).traffic := by
    rw [htraffic, hc]
    split
    · rename_i hc
      rw [met, hc.1]
    · rfl
  cases hmetered with
  | passed target hpasses =>
      have hlt := lt_of_passes hpasses
      have hrefuses := Channel.refuses_of_passes _ _ _ _ hpasses
      refine .passed hpasses hrefuses hpassed hlt (fun c => ?_) ?_ ?_
      · rw [htraffic]
        by_cases hc : a.channel = c
        · subst hc
          rw [if_pos ⟨rfl, hlt⟩, if_pos rfl]
          rfl
        · rw [if_neg fun h => hc h.1, if_neg hc]
      · rw [hmetrics, relayed_countOutcome]
        rfl
      · rw [hmetrics, dropped_countOutcome]
  | refused hrefuses =>
      have hpasses : a.met.passes a.side a.sender a.taken = false := by
        refine Bool.eq_false_iff.mpr fun hpasses => ?_
        cases (Channel.refuses_of_passes _ _ _ _ hpasses).symm.trans hrefuses
      exact .refused hpasses hrefuses hpassed (hsame rfl) hmetrics
  | uncounted hpasses hrefuses houtcome =>
      refine .uncounted hpasses hrefuses ?_ (hsame rfl) ?_
      · rcases houtcome with rfl | ⟨reply, rfl⟩ <;> exact hpassed
      · rcases houtcome with rfl | ⟨reply, rfl⟩ <;> exact hmetrics

/-- What is passed on is more than a sign of life. -/
theorem Sorted.lt_length (h : a.Sorted) {data : Bytes} (hdata : data ∈ a.passed) :
    2 < data.length := by
  cases h with
  | passed hpasses _ hpassed =>
      rw [hpassed, List.mem_singleton] at hdata
      simp only [Channel.passes, Bool.and_eq_true, decide_eq_true_eq] at hpasses
      rw [hdata]
      exact hpasses.1.1.2
  | refused _ _ hpassed | uncounted _ _ hpassed =>
      rw [hpassed] at hdata
      exact (List.not_mem_nil hdata).elim

end Arrival

/-! ## Ledgers -/

/-- The datagrams that were passed on, of those that arrived in some way. -/
def passedBy (p : Arrival → Bool) (as : List Arrival) : List Bytes :=
  (as.filter p).flatMap Arrival.passed

/-- What the loop at an end of a channel has sent out of the socket of the other end. -/
def passedAt (c : ChannelRef) (side : Side) : List Arrival → List Bytes :=
  passedBy fun a => decide (a.channel = c ∧ a.side = side)

/-- What the loops on a side of all channels have sent on. -/
def passedFrom (side : Side) : List Arrival → List Bytes :=
  passedBy fun a => decide (a.side = side)

/-- The length of datagrams taken together. -/
def size (ds : List Bytes) : Nat := (ds.map List.length).sum

theorem passedBy_append (p : Arrival → Bool) (as bs : List Arrival) :
    passedBy p (as ++ bs) = passedBy p as ++ passedBy p bs := by
  rw [passedBy, List.filter_append, List.flatMap_append]
  rfl

theorem passedBy_singleton (p : Arrival → Bool) (a : Arrival) :
    passedBy p [a] = if p a then a.passed else [] := by
  cases hp : p a <;> simp [passedBy, hp]

theorem size_append (ds es : List Bytes) : size (ds ++ es) = size ds + size es := by
  rw [size, List.map_append, List.sum_append]
  rfl

/-- Bytes and number of datagrams, as counters hold them. -/
def reading (ds : List Bytes) : UInt64 × UInt64 :=
  (UInt64.ofNat (size ds), UInt64.ofNat ds.length)

theorem reading_append (ds es : List Bytes) : reading (ds ++ es) = reading ds + reading es := by
  simp only [reading, size_append, List.length_append, UInt64.ofNat_add, Prod.mk_add_mk]

theorem add_reading_nil (x : UInt64 × UInt64) : x + reading [] = x :=
  Prod.ext (UInt64.add_zero _) (UInt64.add_zero _)

theorem flow_counted (t : Traffic) (side s : Side) (data : Bytes) :
    (t.counted side data.length).flow s =
      t.flow s + reading (if side = s then [data] else []) := by
  rw [Traffic.flow, Traffic.bytesFrom_counted, Traffic.packetsFrom_counted]
  split
  · simp [reading, size, Traffic.flow]
  · rfl

namespace Arrival

variable {a : Arrival}

/-- What a datagram adds to the counters of a channel. -/
theorem Sorted.flow (h : a.Sorted) (c : ChannelRef) (s : Side) :
    (a.left.channel c).traffic.flow s =
      (a.found.channel c).traffic.flow s + reading (passedAt c s [a]) := by
  rw [passedAt, passedBy_singleton]
  cases h with
  | passed _ _ hpassed _ htraffic =>
      rw [htraffic, hpassed]
      by_cases hc : a.channel = c
      · rw [if_pos hc, flow_counted]
        simp [hc]
      · rw [if_neg hc]
        simp [hc, add_reading_nil]
  | refused _ _ hpassed htraffic | uncounted _ _ hpassed htraffic =>
      rw [htraffic, hpassed, ite_self, add_reading_nil]

/-- What a datagram adds to the counters of the relay. -/
theorem Sorted.total (h : a.Sorted) (s : Side) :
    a.left.metrics.relayed.flow s =
      a.found.metrics.relayed.flow s + reading (passedFrom s [a]) := by
  rw [passedFrom, passedBy_singleton]
  cases h with
  | passed _ _ hpassed _ _ hrelayed =>
      rw [hrelayed, hpassed, flow_counted]
      simp
  | refused _ _ hpassed _ hmetrics | uncounted _ _ hpassed _ hmetrics =>
      rw [hmetrics, hpassed, ite_self]
      exact (add_reading_nil _).symm

theorem Sorted.dropped (h : a.Sorted) :
    a.left.metrics.dropped =
      a.found.metrics.dropped + UInt64.ofNat ([a].countP Arrival.refused) := by
  rw [List.countP_singleton]
  cases h with
  | passed _ hrefused _ _ _ _ hdropped =>
      rw [hdropped, hrefused]
      exact (UInt64.add_zero _).symm
  | refused _ hrefused _ _ hmetrics =>
      rw [hmetrics, hrefused]
      rfl
  | uncounted _ hrefused _ _ hmetrics =>
      rw [hmetrics, hrefused]
      exact (UInt64.add_zero _).symm

end Arrival

variable {as : List Arrival} {r r' : Relay}

/-- The counters of a relay, where these datagrams have arrived. -/
structure Ledger (as : List Arrival) (r : Relay) : Prop where
  sorted : ∀ a ∈ as, a.Sorted
  known : ∀ a ∈ as, a.passed ≠ [] → a.channel < r.channels.length
  flow : ∀ c side, (r.channel c).traffic.flow side = reading (passedAt c side as)
  total : ∀ side, r.metrics.relayed.flow side = reading (passedFrom side as)
  dropped : r.metrics.dropped = UInt64.ofNat (as.countP Arrival.refused)

namespace Ledger

theorem init (config : Config) : Ledger [] { config } where
  sorted _ ha := (List.not_mem_nil ha).elim
  known _ ha := (List.not_mem_nil ha).elim
  flow c side := by
    rw [channel_of_le c.zero_le]
    cases side <;> rfl
  total side := by cases side <;> rfl
  dropped := rfl

/-- What is no datagram leaves the ledger as it is. -/
theorem unmetered (h : Ledger as r) (hu : Unmetered r r') : Ledger as r' where
  sorted := h.sorted
  known a ha hpassed := Nat.lt_of_lt_of_le (h.known a ha hpassed) hu.length
  flow c side := by rw [hu.traffic, h.flow]
  total side := by rw [hu.relayed, h.total]
  dropped := hu.dropped.trans h.dropped

/-- Another datagram is booked. -/
theorem snoc {a : Arrival} (h : Ledger as a.found) (hserved : a.Served) :
    Ledger (as ++ [a]) a.left where
  sorted b hb := by
    rcases List.mem_append.mp hb with hb | hb
    · exact h.sorted b hb
    · rw [List.mem_singleton.mp hb]
      exact hserved.sorted
  known b hb hpassed := by
    rw [hserved.length]
    rcases List.mem_append.mp hb with hb | hb
    · exact h.known b hb hpassed
    · rw [List.mem_singleton.mp hb] at hpassed ⊢
      cases hserved.sorted with
      | passed _ _ _ hlt => exact hlt
      | refused _ _ hnone | uncounted _ _ hnone => exact absurd hnone hpassed
  flow c side := by
    rw [hserved.sorted.flow, h.flow, passedAt, passedBy_append, reading_append]
  total side := by
    rw [hserved.sorted.total, h.total, passedFrom, passedBy_append, reading_append]
  dropped := by
    rw [hserved.sorted.dropped, h.dropped, List.countP_append, UInt64.ofNat_add]

end Ledger

end Relay

end PeerRelay
