import PeerRelay.Proofs.Channel.Admission
import PeerRelay.Proofs.Relay.Arrivals
import PeerRelay.Proofs.Relay.Lasting
import PeerRelay.Proofs.Traffic.Reports

/-!
# What the ticks of a channel report

The ticks cut a run into rounds. In whatever order datagrams and ticks come, each datagram that
is passed on lies in one round, and the tick at the end of the round counts it, in its report
and in no other. A round without such a datagram ends without a report, and nothing is lost by
it.
-/

namespace PeerRelay.Channel

open Relay (size reading)
open Traffic (Report Window reported)

/-! ## What changes the counters, and what ticks leave behind -/

/-- What an end passes on when something happens to the channel. -/
def passedOn (c : Channel) (s : Side) : Event → List Bytes
  | .datagram side now sender data =>
    if side = s then (c.receive side now sender data).2.passed else []
  | _ => []

/-- What an end passes on in the course of a run, the first of it first. -/
def passedIn (c : Channel) (s : Side) : List Event → List Bytes
  | [] => []
  | e :: events => c.passedOn s e ++ (c.step e).passedIn s events

theorem passedIn_append (c : Channel) (s : Side) (events more : List Event) :
    c.passedIn s (events ++ more) = c.passedIn s events ++ (c.after events).passedIn s more := by
  induction events generalizing c with
  | nil => rfl
  | cons e events ih => simp [passedIn, ih]

theorem passedIn_snoc (c : Channel) (s : Side) (events : List Event) (e : Event) :
    c.passedIn s (events ++ [e]) = c.passedIn s events ++ (c.after events).passedOn s e := by
  simp [passedIn_append, passedIn]

/-- The window and the latest report, which only ticks change. -/
def noted (c : Channel) : Window × Option Report := (c.window, c.lastReport)

@[simp] theorem noted_modify (c : Channel) (side : Side) (f : Endpoint → Endpoint) :
    (c.modify side f).noted = c.noted := by
  cases side <;> rfl

@[simp] theorem noted_touch (c : Channel) (side : Side) (now : Nat) :
    (c.touch side now).noted = c.noted :=
  noted_modify ..

@[simp] theorem noted_count (c : Channel) (side : Side) (bytes : Nat) :
    (c.count side bytes).noted = c.noted := by
  cases side <;> rfl

theorem noted_receive (c : Channel) (side : Side) (now : Nat) (sender : SocketAddr)
    (data : Bytes) : (c.receive side now sender data).1.noted = c.noted := by
  unfold receive
  dsimp only
  split
  · exact noted_modify ..
  · unfold authenticate
    dsimp only
    split
    · exact noted_touch ..
    · split <;> simp
  · unfold relay
    dsimp only
    split
    · rfl
    · split
      · simp
      · split
        · simp
        · split <;> simp
  · rfl

theorem noted_step (c : Channel) {e : Event} (h : ∀ now, e ≠ .tick now) :
    (c.step e).noted = c.noted := by
  cases e with
  | start =>
      simp only [step, start]
      split <;> rfl
  | datagram side now sender data => exact noted_receive c side now sender data
  | takeWaiting side => exact noted_modify ..
  | poll now =>
      simp only [step]
      split <;> rfl
  | tick now => exact absurd rfl (h now)
  | stop => rfl
  | retire side => exact noted_modify ..

theorem noted_after (c : Channel) {events : List Event} (h : ∀ now, Event.tick now ∉ events) :
    (c.after events).noted = c.noted := by
  induction events generalizing c with
  | nil => rfl
  | cons e events ih =>
      have he (now : Nat) : e ≠ .tick now := fun heq => h now (heq ▸ List.mem_cons_self)
      rw [after_cons, ih _ fun now hmem => h now (List.mem_cons_of_mem _ hmem), noted_step c he]

/-- The counters grow by what is passed on. -/
theorem flow_step (c : Channel) (e : Event) (s : Side) :
    (c.step e).traffic.flow s = c.traffic.flow s + reading (c.passedOn s e) := by
  have hnothing {t : Traffic} {ds : List Bytes} (ht : t = c.traffic) (hds : ds = []) :
      t.flow s = c.traffic.flow s + reading ds := by
    rw [ht, hds, Relay.add_reading_nil]
  cases e with
  | start =>
      refine hnothing ?_ rfl
      simp only [step, start]
      split <;> rfl
  | datagram side now sender data =>
      have hmetered := metered_receive c side now sender data
      rw [step, passedOn]
      generalize (c.receive side now sender data).1.traffic = traffic at hmetered ⊢
      generalize (c.receive side now sender data).2 = outcome at hmetered ⊢
      cases hmetered with
      | passed target => exact Relay.flow_counted ..
      | refused => exact hnothing rfl (ite_self _)
      | uncounted _ _ houtcome =>
          rcases houtcome with rfl | ⟨reply, rfl⟩ <;> exact hnothing rfl (ite_self _)
  | takeWaiting side => exact hnothing (traffic_modify ..) rfl
  | poll now =>
      refine hnothing ?_ rfl
      simp only [step]
      split <;> rfl
  | tick now => exact hnothing rfl rfl
  | stop => exact hnothing rfl rfl
  | retire side => exact hnothing (traffic_modify ..) rfl

/-- Signs of life are not passed on. -/
theorem lt_length_of_passedOn {c : Channel} {s : Side} {e : Event} {data : Bytes}
    (h : data ∈ c.passedOn s e) : 2 < data.length := by
  cases e with
  | datagram side now sender sent =>
      rw [passedOn] at h
      split at h
      · have hmetered := metered_receive c side now sender sent
        generalize (c.receive side now sender sent).1.traffic = traffic at hmetered
        generalize (c.receive side now sender sent).2 = outcome at hmetered h
        cases hmetered with
        | passed target hpasses =>
            simp only [passes, Bool.and_eq_true, decide_eq_true_eq] at hpasses
            rw [List.mem_singleton.mp h]
            exact hpasses.1.1.2
        | refused => cases h
        | uncounted _ _ houtcome => rcases houtcome with rfl | ⟨reply, rfl⟩ <;> cases h
      · cases h
  | start | takeWaiting side | poll now | tick now | stop | retire side => cases h

/-! ## Rounds -/

/-- A round: what the ends have passed on since the tick before, and what the tick at the end
of the round reported. -/
structure Round where
  passed : Side → List Bytes
  report : Option Report

/-- The rounds of a run, and what the ends have passed on since the last of them. -/
structure Log where
  rounds : List Round := []
  since : Side → List Bytes := fun _ => []

/-- The report of a round is about the datagrams of the round, and nothing else. -/
structure Round.Told (round : Round) : Prop where
  isSome : round.report.isSome = true ↔ ∃ s, round.passed s ≠ []
  grown : ∀ r ∈ round.report, ∀ s,
    r.grown.amounts s = (size (round.passed s), (round.passed s).length)

namespace Log

/-- Writes down what happens to a channel. A tick closes the round. -/
def note (l : Log) (c : Channel) : Event → Log
  | .tick now => { rounds := l.rounds ++ [⟨l.since, (c.window.advance c.traffic now).2⟩] }
  | e => { l with since := fun s => l.since s ++ c.passedOn s e }

/-- What an end passed on until the latest tick. -/
def closed (l : Log) (s : Side) : List Bytes := l.rounds.flatMap (·.passed s)

/-- What an end passed on. -/
def passed (l : Log) (s : Side) : List Bytes := l.closed s ++ l.since s

theorem note_of_ne_tick {e : Event} (h : ∀ now, e ≠ .tick now) (l : Log) (c : Channel) :
    l.note c e = { l with since := fun s => l.since s ++ c.passedOn s e } := by
  cases e with
  | tick now => exact absurd rfl (h now)
  | start | datagram side now sender data | takeWaiting side | poll now | stop | retire side =>
      rfl

theorem closed_note_tick (l : Log) (c : Channel) (now : Nat) (s : Side) :
    (l.note c (.tick now)).closed s = l.passed s := by
  simp [closed, note, passed]

theorem passed_note (l : Log) (c : Channel) (e : Event) (s : Side) :
    (l.note c e).passed s = l.passed s ++ c.passedOn s e := by
  by_cases h : ∃ now, e = .tick now
  · obtain ⟨now, rfl⟩ := h
    rw [passed, closed_note_tick]
    rfl
  · rw [note_of_ne_tick (fun now he => h ⟨now, he⟩)]
    exact (List.append_assoc ..).symm

end Log

/-- What is to be written down of a run. -/
def log (c : Channel) (events : List Event) : Log :=
  (events.foldl (fun p e => (p.1.step e, p.2.note p.1 e)) (c, ({} : Log))).2

theorem log_snoc (c : Channel) (events : List Event) (e : Event) :
    c.log (events ++ [e]) = (c.log events).note (c.after events) e := by
  have hfst (c : Channel) (l : Log) :
      (events.foldl (fun p e => (p.1.step e, p.2.note p.1 e)) (c, l)).1 = c.after events := by
    induction events generalizing c l with
    | nil => rfl
    | cons e events ih => exact ih ..
  rw [log, List.foldl_append]
  exact congrArg (fun d => Log.note _ d e) (hfst c {})

/-- What comes after the latest tick is in no round. -/
theorem rounds_log_append (c : Channel) (events : List Event) {more : List Event}
    (h : ∀ now, Event.tick now ∉ more) :
    (c.log (events ++ more)).rounds = (c.log events).rounds := by
  induction more using List.reverseRecOn with
  | nil => rw [List.append_nil]
  | append_singleton more e ih =>
      have he (now : Nat) : e ≠ .tick now := fun heq => h now (by simp [heq])
      rw [← List.append_assoc, log_snoc, Log.note_of_ne_tick he,
        ih fun now hmem => h now (List.mem_append_left _ hmem)]

/-! ## Counters and rounds -/

/-- A channel that has neither counted nor reported anything. -/
structure Untouched (c : Channel) : Prop where
  traffic : c.traffic = {}
  window : c.window.last = {}
  lastReport : c.lastReport = none

theorem three_mul_length_le_size {ds : List Bytes} (h : ∀ data ∈ ds, 2 < data.length) :
    3 * ds.length ≤ size ds := by
  induction ds with
  | nil => exact Nat.le_refl 0
  | cons data ds ih =>
      have hfirst := h data List.mem_cons_self
      have hrest := ih fun d hd => h d (List.mem_cons_of_mem _ hd)
      have hsize : size (data :: ds) = data.length + size ds := by simp [size]
      rw [hsize, List.length_cons]
      omega

theorem amounts_of_flow {t : Traffic} {s : Side} {ds : List Bytes} (h : t.flow s = reading ds)
    (hlong : ∀ data ∈ ds, 2 < data.length) (hsize : size ds < 2 ^ 64) :
    t.amounts s = (size ds, ds.length) := by
  have hlength := three_mul_length_le_size hlong
  have hbytes : t.bytesFrom s = UInt64.ofNat (size ds) := congrArg Prod.fst h
  have hpackets : t.packetsFrom s = UInt64.ofNat ds.length := congrArg Prod.snd h
  rw [Traffic.amounts, hbytes, hpackets, UInt64.toNat_ofNat_of_lt' hsize,
    UInt64.toNat_ofNat_of_lt' (Nat.lt_of_le_of_lt (by omega) hsize)]

/-- A log tells how a channel came to what it counts and has reported. -/
structure Keeps (l : Log) (c : Channel) : Prop where
  long : ∀ s, ∀ data ∈ l.passed s, 2 < data.length
  counted : ∀ s, c.traffic.flow s = reading (l.passed s)
  ticked : ∀ s, c.window.last.flow s = reading (l.closed s)
  told : ∀ round ∈ l.rounds, round.Told
  reported : ∀ s, reported (l.rounds.map Round.report) s = c.window.last.amounts s
  latest : c.lastReport = (l.rounds.filterMap Round.report).getLast?

namespace Keeps

variable {l : Log} {c : Channel}

theorem init (h : Untouched c) : Keeps {} c where
  long _ _ hdata := by cases hdata
  counted s := by
    rw [h.traffic]
    cases s <;> rfl
  ticked s := by
    rw [h.window]
    cases s <;> rfl
  told _ hround := by cases hround
  reported s := by
    rw [h.window]
    cases s <;> rfl
  latest := h.lastReport

theorem long_closed (h : Keeps l c) (s : Side) : ∀ data ∈ l.closed s, 2 < data.length :=
  fun data hdata => h.long s data (List.mem_append_left _ hdata)

theorem size_closed_le (l : Log) (s : Side) : size (l.closed s) ≤ size (l.passed s) := by
  rw [Log.passed, Relay.size_append]
  exact Nat.le_add_right ..

theorem long_note (h : Keeps l c) (e : Event) (s : Side) :
    ∀ data ∈ (l.note c e).passed s, 2 < data.length := by
  intro data hdata
  rw [Log.passed_note] at hdata
  rcases List.mem_append.mp hdata with hdata | hdata
  · exact h.long s data hdata
  · exact lt_length_of_passedOn hdata

theorem counted_note (h : Keeps l c) (e : Event) (s : Side) :
    (c.step e).traffic.flow s = reading ((l.note c e).passed s) := by
  rw [flow_step, h.counted, Log.passed_note, Relay.reading_append]

/-- Between ticks the window and the reports stay. -/
theorem note_of_ne_tick (h : Keeps l c) {e : Event} (he : ∀ now, e ≠ .tick now) :
    Keeps (l.note c e) (c.step e) := by
  have hnoted := noted_step c he
  have hwindow : (c.step e).window = c.window := congrArg Prod.fst hnoted
  have hlast : (c.step e).lastReport = c.lastReport := congrArg Prod.snd hnoted
  have hrounds : (l.note c e).rounds = l.rounds := by rw [Log.note_of_ne_tick he]
  refine ⟨h.long_note e, h.counted_note e, fun s => ?_, ?_, fun s => ?_, ?_⟩
  · rw [hwindow, Log.closed, hrounds]
    exact h.ticked s
  · rw [hrounds]
    exact h.told
  · rw [hwindow, hrounds]
    exact h.reported s
  · rw [hlast, hrounds]
    exact h.latest

variable (h : Keeps l c) (hsize : ∀ s, size (l.passed s) < 2 ^ 64)
include h hsize

theorem amounts_traffic (s : Side) :
    c.traffic.amounts s = (size (l.passed s), (l.passed s).length) :=
  amounts_of_flow (h.counted s) (h.long s) (hsize s)

theorem amounts_window (s : Side) :
    c.window.last.amounts s = (size (l.closed s), (l.closed s).length) :=
  amounts_of_flow (h.ticked s) (h.long_closed s)
    (Nat.lt_of_le_of_lt (size_closed_le l s) (hsize s))

/-- Datagrams are too long to be too many. -/
theorem fits_traffic : c.traffic.Fits := by
  have hup : c.traffic.upPackets.toNat = (l.passed .src).length :=
    congrArg Prod.snd (h.amounts_traffic hsize .src)
  have hdown : c.traffic.downPackets.toNat = (l.passed .dst).length :=
    congrArg Prod.snd (h.amounts_traffic hsize .dst)
  have hsrc := three_mul_length_le_size (h.long .src)
  have hdst := three_mul_length_le_size (h.long .dst)
  have hsizes := And.intro (hsize .src) (hsize .dst)
  rw [Traffic.Fits, hup, hdown]
  omega

theorem grew : Traffic.Grew c.window.last c.traffic := by
  have hbytes (s : Side) : (c.window.last.bytesFrom s).toNat = size (l.closed s) ∧
      (c.traffic.bytesFrom s).toNat = size (l.closed s) + size (l.since s) :=
    ⟨congrArg Prod.fst (h.amounts_window hsize s),
      (congrArg Prod.fst (h.amounts_traffic hsize s)).trans (Relay.size_append ..)⟩
  have hpackets (s : Side) : (c.window.last.packetsFrom s).toNat = (l.closed s).length ∧
      (c.traffic.packetsFrom s).toNat = (l.closed s).length + (l.since s).length :=
    ⟨congrArg Prod.snd (h.amounts_window hsize s),
      (congrArg Prod.snd (h.amounts_traffic hsize s)).trans List.length_append⟩
  refine ⟨fun s => UInt64.le_iff_toNat_le.mpr ?_, fun s => UInt64.le_iff_toNat_le.mpr ?_,
    fun s hsame => UInt64.toNat_inj.mp ?_⟩
  · rw [(hbytes s).1, (hbytes s).2]
    exact Nat.le_add_right ..
  · rw [(hpackets s).1, (hpackets s).2]
    exact Nat.le_add_right ..
  · have hlength := congrArg UInt64.toNat hsame
    rw [(hpackets s).1, (hpackets s).2] at hlength
    have hnone : l.since s = [] := List.eq_nil_of_length_eq_zero (by omega)
    rw [(hbytes s).1, (hbytes s).2, hnone]
    rfl

theorem tells (now : Nat) :
    Traffic.Tells c.window.last c.traffic (c.window.advance c.traffic now).2 := by
  refine (h.grew hsize).tells c.window now ?_ (h.fits_traffic hsize)
  have hup := UInt64.le_iff_toNat_le.mp ((h.grew hsize).packets .src)
  have hdown := UInt64.le_iff_toNat_le.mp ((h.grew hsize).packets .dst)
  exact Nat.lt_of_le_of_lt (Nat.add_le_add hup hdown) (h.fits_traffic hsize)

/-- A tick reports of the round that it closes. -/
theorem told_tick (now : Nat) : Round.Told ⟨l.since, (c.window.advance c.traffic now).2⟩ := by
  have htells := h.tells hsize now
  refine ⟨htells.isSome.trans (exists_congr fun s => ?_), fun r hr s => ?_⟩
  · have hlast : (c.window.last.packetsFrom s).toNat = (l.closed s).length :=
      congrArg Prod.snd (h.amounts_window hsize s)
    have hnow : (c.traffic.packetsFrom s).toNat = (l.closed s).length + (l.since s).length :=
      (congrArg Prod.snd (h.amounts_traffic hsize s)).trans List.length_append
    change _ ↔ l.since s ≠ []
    rw [UInt64.lt_iff_toNat_lt, hlast, hnow, ← List.length_pos_iff]
    omega
  · have hgrown := htells.grown r hr s
    rw [h.amounts_window hsize, h.amounts_traffic hsize, Log.passed, Relay.size_append,
      List.length_append] at hgrown
    exact add_left_cancel hgrown

theorem tick (now : Nat) : Keeps (l.note c (.tick now)) (c.step (.tick now)) where
  long := h.long_note _
  counted := h.counted_note _
  ticked s := by
    rw [Log.closed_note_tick]
    exact h.counted s
  told round hround := by
    rcases List.mem_append.mp hround with hround | hround
    · exact h.told round hround
    · rw [List.mem_singleton.mp hround]
      exact h.told_tick hsize now
  reported s := by
    have hadd := (h.tells hsize now).add_told (h.grew hsize) s
    rw [← h.reported s] at hadd
    refine Eq.trans ?_ hadd
    simp [Log.note, Traffic.reported]
  latest := by
    change ((c.window.advance c.traffic now).2 <|> c.lastReport) = _
    rw [h.latest]
    cases hreport : (c.window.advance c.traffic now).2 <;> simp [Log.note, hreport]

theorem note (e : Event) : Keeps (l.note c e) (c.step e) := by
  by_cases htick : ∃ now, e = .tick now
  · obtain ⟨now, rfl⟩ := htick
    exact h.tick hsize now
  · exact h.note_of_ne_tick fun now he => htick ⟨now, he⟩

end Keeps

/-! ## Runs -/

variable {c : Channel} {events : List Event}

theorem passed_log (c : Channel) (events : List Event) (s : Side) :
    (c.log events).passed s = c.passedIn s events := by
  induction events using List.reverseRecOn with
  | nil => rfl
  | append_singleton events e ih => rw [log_snoc, Log.passed_note, ih, passedIn_snoc]

theorem Untouched.keeps (hc : Untouched c) (hsize : ∀ s, size (c.passedIn s events) < 2 ^ 64) :
    Keeps (c.log events) (c.after events) := by
  induction events using List.reverseRecOn with
  | nil => exact .init hc
  | append_singleton events e ih =>
      have hbefore (s : Side) : size (c.passedIn s events) < 2 ^ 64 := by
        refine Nat.lt_of_le_of_lt ?_ (hsize s)
        rw [passedIn_snoc, Relay.size_append]
        exact Nat.le_add_right ..
      rw [log_snoc, after_snoc]
      refine (ih hbefore).note (fun s => ?_) e
      rw [passed_log]
      exact hbefore s

/-- In a round without a report nothing was passed on. -/
theorem flatMap_reported {rounds : List Round} (h : ∀ round ∈ rounds, round.Told) (s : Side) :
    (rounds.filter (·.report.isSome)).flatMap (·.passed s) = rounds.flatMap (·.passed s) := by
  induction rounds with
  | nil => rfl
  | cons round rounds ih =>
      have htold := h round List.mem_cons_self
      rw [List.flatMap_cons, ← ih fun r hr => h r (List.mem_cons_of_mem _ hr), List.filter_cons]
      split
      · rw [List.flatMap_cons]
      · rename_i hnone
        have hempty : round.passed s = [] :=
          Decidable.byContradiction fun hne => hnone (htold.isSome.mpr ⟨s, hne⟩)
        rw [hempty, List.nil_append]

/-- What the reports of a run tell. -/
structure Accounts (c : Channel) (events : List Event) : Prop where
  /-- Each datagram that is passed on is counted once. It lies in one round, unless it came after
  the latest tick, -/
  counted : ∀ s, (c.after events).traffic.amounts s =
    (size (c.passedIn s events), (c.passedIn s events).length)
  once : ∀ s, c.passedIn s events =
    (c.log events).rounds.flatMap (·.passed s) ++ (c.log events).since s
  /-- and the report of that round is about the datagrams of the round. -/
  told : ∀ round ∈ (c.log events).rounds, round.Told
  /-- At the latest tick everything until then has been reported, -/
  all : ∀ before now later, events = before ++ .tick now :: later →
    (∀ t, Event.tick t ∉ later) → ∀ s,
      reported ((c.log events).rounds.map Round.report) s = (c.after before).traffic.amounts s ∧
      c.passedIn s before =
        ((c.log events).rounds.filter (·.report.isSome)).flatMap (·.passed s)
  /-- and the report that is kept is that of the latest round in which there was any. -/
  latest : (c.after events).lastReport =
    ((c.log events).rounds.filterMap Round.report).getLast?

theorem Untouched.accounts (hc : Untouched c)
    (hsize : ∀ s, size (c.passedIn s events) < 2 ^ 64) : c.Accounts events := by
  have h := hc.keeps hsize
  have hpassed (s : Side) : size ((c.log events).passed s) < 2 ^ 64 := by
    rw [passed_log]
    exact hsize s
  refine ⟨fun s => ?_, fun s => (passed_log c events s).symm, h.told, ?_, h.latest⟩
  · rw [← passed_log]
    exact h.amounts_traffic hpassed s
  · rintro before now later rfl hlater s
    have hsplit : before ++ .tick now :: later = (before ++ [.tick now]) ++ later := by simp
    -- The latest tick has left the window, and nothing has changed that since.
    have hwindow : (c.after (before ++ .tick now :: later)).window.last =
        (c.after before).traffic := by
      have hnoted := noted_after (c.after (before ++ [.tick now])) hlater
      rw [← after_append, ← hsplit] at hnoted
      refine (congrArg (·.1.last) hnoted).trans ?_
      rw [after_snoc]
      rfl
    have hclosed : (c.log (before ++ .tick now :: later)).closed s = c.passedIn s before := by
      rw [Log.closed, hsplit, rounds_log_append c _ hlater, ← Log.closed, log_snoc,
        Log.closed_note_tick, passed_log]
    exact ⟨(h.reported s).trans (by rw [hwindow]),
      hclosed.symm.trans (flatMap_reported h.told s).symm⟩

/-- A channel that is made has nothing to report yet. -/
theorem untouched_newChannel (r : Relay) (src dst : SessionRef) :
    Untouched (r.newChannel src dst) :=
  ⟨rfl, rfl, rfl⟩

/-- Reports partition the traffic: those of any window over snapshots that grow by whole
datagrams, and so those of a channel, whatever happens to it. -/
theorem reports_partition_traffic :
    (∀ (w : Window) (ticks : List (Traffic × Nat)),
      List.IsChain Traffic.Grew (w.last :: ticks.map Prod.fst) →
      (∀ t ∈ w.last :: ticks.map Prod.fst, t.Fits) → w.Accounts ticks) ∧
    ∀ (c : Channel) (events : List Event), Untouched c →
      (∀ s, size (c.passedIn s events) < 2 ^ 64) → c.Accounts events :=
  ⟨Window.accounts, fun _ _ => Untouched.accounts⟩

/-- Four datagrams, a quiet tick, and three datagrams in both directions. -/
def quietBetween : List (Traffic × Nat) :=
  [(⟨400, 4, 0, 0⟩, 1), (⟨400, 4, 0, 0⟩, 2), (⟨600, 6, 50, 1⟩, 4)]

/-- Two datagrams, each before a tick, and ticks before and between them that are quiet. -/
def ticking : List Event :=
  greetings ++ [.tick 10, .datagram .src 11 (peerAt 1 6001) [1, 2, 3], .tick 20, .tick 30,
    .datagram .dst 31 (peerAt 2 7000) [4, 5, 6, 7], .tick 40]

theorem reports_of_pair :
    (({} : Window).Accounts quietBetween ∧ pair.Accounts ticking) ∧
      ({} : Window).reports quietBetween =
        [some ⟨⟨400, 4, 0, 0⟩, 1⟩, none, some ⟨⟨200, 2, 50, 1⟩, 2⟩] ∧
      (pair.log ticking).rounds.map Round.report =
        [none, some ⟨⟨3, 1, 0, 0⟩, 10⟩, none, some ⟨⟨0, 0, 4, 1⟩, 10⟩] := by
  have hgrew : List.IsChain Traffic.Grew (({} : Window).last :: quietBetween.map Prod.fst) := by
    refine .cons_cons ⟨?_, ?_, ?_⟩ (.cons_cons ⟨?_, ?_, ?_⟩ (.cons_cons ⟨?_, ?_, ?_⟩ (.singleton _)))
    all_goals intro s; cases s <;> decide
  have hfits : ∀ t ∈ ({} : Window).last :: quietBetween.map Prod.fst, t.Fits := by
    intro t ht
    simp only [quietBetween, List.map_cons, List.map_nil, List.mem_cons, List.not_mem_nil,
      or_false] at ht
    rcases ht with rfl | rfl | rfl | rfl <;> unfold Traffic.Fits <;> decide
  obtain ⟨hwindow, hchannel⟩ := reports_partition_traffic
  refine ⟨⟨hwindow {} quietBetween hgrew hfits, hchannel pair ticking ⟨rfl, rfl, rfl⟩ ?_⟩, ?_, ?_⟩
  · intro s
    cases s <;> decide
  · decide
  · decide

end PeerRelay.Channel
