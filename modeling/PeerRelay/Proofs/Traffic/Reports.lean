import Mathlib.Algebra.Group.Prod
import Mathlib.Algebra.GroupWithZero.Nat
import PeerRelay.Proofs.Relay.Metering

/-!
# What reports tell of

Each tick moves the window on, also one that reports nothing. So a report is about the time
since the tick before it, whether that one reported anything or not, and all reports together
account for everything since the window began.
-/

namespace PeerRelay.Traffic

/-- Bytes and datagrams in the direction in which the end on a side sends, as plain numbers. -/
def amounts (t : Traffic) (side : Side) : Nat × Nat :=
  ((t.bytesFrom side).toNat, (t.packetsFrom side).toNat)

/-- A counter can hold the datagrams of both directions together. -/
def Fits (t : Traffic) : Prop := t.upPackets.toNat + t.downPackets.toNat < 2 ^ 64

/-- From a snapshot to a later one, where bytes are counted together with the datagram that they
are in. -/
structure Grew (before now : Traffic) : Prop where
  bytes : ∀ side, before.bytesFrom side ≤ now.bytesFrom side
  packets : ∀ side, before.packetsFrom side ≤ now.packetsFrom side
  whole : ∀ side, before.packetsFrom side = now.packetsFrom side →
    before.bytesFrom side = now.bytesFrom side

/-- What there is to report of the time between two snapshots. -/
structure Tells (before now : Traffic) (report : Option Report) : Prop where
  isSome : report.isSome = true ↔ ∃ side, before.packetsFrom side < now.packetsFrom side
  grown : ∀ r ∈ report, ∀ side, before.amounts side + r.grown.amounts side = now.amounts side

theorem toNat_growth {now before : UInt64} (h : before ≤ now) :
    before.toNat + (growth now before).toNat = now.toNat := by
  have hle := UInt64.le_iff_toNat_le.mp h
  rw [growth, if_pos h, UInt64.toNat_sub_of_le _ _ h]
  omega

theorem Fits.toNat_packets {t : Traffic} (h : t.Fits) :
    t.packets.toNat = t.upPackets.toNat + t.downPackets.toNat := by
  rw [packets, UInt64.toNat_add, Nat.mod_eq_of_lt h]

variable {before now : Traffic}

theorem Grew.amounts_since (h : Grew before now) (side : Side) :
    before.amounts side + (now.since before).amounts side = now.amounts side := by
  cases side with
  | src => exact Prod.ext (toNat_growth (h.bytes .src)) (toNat_growth (h.packets .src))
  | dst => exact Prod.ext (toNat_growth (h.bytes .dst)) (toNat_growth (h.packets .dst))

/-- Neither direction makes up for the other: the sums are equal only where nothing was
counted. -/
theorem Grew.packets_eq_iff (h : Grew before now) (hbefore : before.Fits) (hnow : now.Fits) :
    now.packets = before.packets ↔ ∀ side, before.packetsFrom side = now.packetsFrom side := by
  have hup := UInt64.le_iff_toNat_le.mp (h.packets .src)
  have hdown := UInt64.le_iff_toNat_le.mp (h.packets .dst)
  simp only [packetsFrom] at hup hdown
  constructor
  · intro heq side
    have hsum := congrArg UInt64.toNat heq
    rw [hnow.toNat_packets, hbefore.toNat_packets] at hsum
    cases side with
    | src => exact UInt64.toNat_inj.mp (by simp only [packetsFrom]; omega)
    | dst => exact UInt64.toNat_inj.mp (by simp only [packetsFrom]; omega)
  · intro hsame
    have hsrc := hsame .src
    have hdst := hsame .dst
    simp only [packetsFrom] at hsrc hdst
    rw [Traffic.packets, Traffic.packets, hsrc, hdst]

theorem Grew.tells (w : Window) (instant : Nat) (h : Grew w.last now) (hlast : w.last.Fits)
    (hnow : now.Fits) : Tells w.last now (w.advance now instant).2 := by
  have hiff := h.packets_eq_iff hlast hnow
  simp only [Window.advance]
  split
  · rename_i heq
    refine ⟨⟨nofun, ?_⟩, nofun⟩
    rintro ⟨side, hlt⟩
    rw [hiff.mp heq side] at hlt
    exact absurd hlt (UInt64.lt_irrefl _)
  · rename_i hne
    refine ⟨⟨fun _ => ?_, fun _ => rfl⟩, ?_⟩
    · obtain ⟨side, hside⟩ := Classical.not_forall.mp (mt hiff.mpr hne)
      exact ⟨side, UInt64.lt_of_le_of_ne (h.packets side) hside⟩
    · rintro r hr
      rw [Option.mem_some.mp hr.symm]
      exact h.amounts_since

/-! ## Sums of reports -/

/-- What was reported at a tick, which may be nothing. -/
def told (report : Option Report) (side : Side) : Nat × Nat :=
  report.elim 0 (·.grown.amounts side)

/-- What reports add up to. -/
def reported (reports : List (Option Report)) (side : Side) : Nat × Nat :=
  (reports.map (told · side)).sum

/-- What the ticks report, one after another: each has the counters and the instant. -/
def Window.reports (w : Window) : List (Traffic × Nat) → List (Option Report)
  | [] => []
  | (now, instant) :: ticks =>
    (w.advance now instant).2 :: (w.advance now instant).1.reports ticks

/-- Where there is nothing to report, nothing was counted. -/
theorem Tells.add_told {report : Option Report} (h : Tells before now report)
    (hgrew : Grew before now) (side : Side) :
    before.amounts side + told report side = now.amounts side := by
  cases report with
  | some r => exact h.grown r rfl side
  | none =>
      have hsame : before.packetsFrom side = now.packetsFrom side := by
        refine Decidable.byContradiction fun hne => ?_
        cases h.isSome.mpr ⟨side, UInt64.lt_of_le_of_ne (hgrew.packets side) hne⟩
      exact Prod.ext (congrArg UInt64.toNat (hgrew.whole side hsame))
        (congrArg UInt64.toNat hsame)

/-- What the reports of a window tell. -/
structure Window.Accounts (w : Window) (ticks : List (Traffic × Nat)) : Prop where
  /-- Each tick reports of the time since the tick before, -/
  each : List.Forall₂ (fun step report => Tells step.1 step.2 report)
    ((w.last :: ticks.map Prod.fst).zip (ticks.map Prod.fst)) (w.reports ticks)
  /-- and after each of them everything since the beginning has been reported. -/
  all : ∀ n (hn : n < ticks.length) (side : Side),
    w.last.amounts side + reported ((w.reports ticks).take (n + 1)) side =
      ticks[n].1.amounts side

theorem Window.accounts (w : Window) (ticks : List (Traffic × Nat))
    (hgrew : List.IsChain Grew (w.last :: ticks.map Prod.fst))
    (hfits : ∀ t ∈ w.last :: ticks.map Prod.fst, t.Fits) : w.Accounts ticks := by
  induction ticks generalizing w with
  | nil => exact ⟨.nil, nofun⟩
  | cons tick ticks ih =>
      obtain ⟨now, instant⟩ := tick
      rw [List.map_cons, List.isChain_cons_cons] at hgrew
      have htells : Tells w.last now (w.advance now instant).2 :=
        hgrew.1.tells w instant (hfits _ List.mem_cons_self)
          (hfits _ (List.mem_cons_of_mem _ List.mem_cons_self))
      have hlater := ih (w.advance now instant).1 hgrew.2
        fun t ht => hfits t (List.mem_cons_of_mem _ ht)
      refine ⟨.cons htells hlater.each, fun n hn side => ?_⟩
      have hfirst : w.last.amounts side + told (w.advance now instant).2 side =
          now.amounts side := htells.add_told hgrew.1 side
      rw [reports, List.take_succ_cons, reported, List.map_cons, List.sum_cons, ← add_assoc,
        hfirst]
      cases n with
      | zero => exact add_zero _
      | succ n => exact hlater.all n (Nat.lt_of_succ_lt_succ hn) side

end PeerRelay.Traffic
