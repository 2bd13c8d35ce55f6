import PeerRelay.Proofs.Channel.Attainment
import PeerRelay.Proofs.Relay.Closing

/-!
# When the watchdog strikes

The watchdog stops a channel at a check if, and only if, one of its peers has been silent for
longer than is allowed, as told by the datagrams that have arrived. Neither a stranger nor what
comes from the other side keeps a silent peer's end alive.
-/

namespace PeerRelay.Channel

/-- For how many milliseconds the peer of an end has been silent, as the datagrams tell: since
the latest that was a sign of life, or since the channel was made. -/
def silence (c : Channel) (ds : List Datagram) (s : Side) (now : Nat) : Nat :=
  c.age now - c.age ((c.config.policy.lastHeard? s ds).getD c.createdAt)

variable {c d : Channel} {ds : List Datagram} {s : Side}

theorem silence_snoc_of_heard {x : Datagram} (hside : x.side = s)
    (hip : ∀ a, c.config.policy.peer? s ds = some a → x.sender.ip = a.ip) (now : Nat) :
    c.silence (ds ++ [x]) s now = c.age now - c.age x.now := by
  rw [silence, Policy.lastHeard?_snoc, if_pos (Policy.hears_of_peer hside hip), Option.getD_some]

theorem silence_snoc_of_unheard {x : Datagram}
    (hx : x.side ≠ s ∨ ∃ a, c.config.policy.peer? s ds = some a ∧ x.sender.ip ≠ a.ip) (now : Nat) :
    c.silence (ds ++ [x]) s now = c.silence ds s now := by
  rw [silence, Policy.lastHeard?_snoc, Policy.hears_of_other hx, if_neg Bool.false_ne_true, silence]

theorem Attained.isExpired_iff (h : Attained c ds d) (now : Nat) :
    d.isExpired now = true ↔ ∃ limit ∈ c.config.expiry, ∃ s, limit < c.silence ds s now := by
  have hsilent (s : Side) :
      d.isSilent s now = true ↔ ∃ limit ∈ c.config.expiry, limit < c.silence ds s now := by
    simp only [isSilent, h.config, h.age_eq, (h.ends s).lastActive, silence]
    cases c.config.expiry <;> simp
  rw [isExpired, Bool.or_eq_true, hsilent, hsilent]
  constructor
  · rintro (⟨limit, hlimit, hlong⟩ | ⟨limit, hlimit, hlong⟩)
    · exact ⟨limit, hlimit, .src, hlong⟩
    · exact ⟨limit, hlimit, .dst, hlong⟩
  · rintro ⟨limit, hlimit, s, hlong⟩
    cases s with
    | src => exact .inl ⟨limit, hlimit, hlong⟩
    | dst => exact .inr ⟨limit, hlimit, hlong⟩

/-- What a check of the watchdog comes to at a channel that has gone on since its start. -/
structure Watched (c : Channel) (events : List Event) (r : Relay) (k : ChannelRef) : Prop where
  /-- The channel is over then just if a peer has been silent for longer than is allowed, -/
  stops : ((r.step (.due (.poll k))).channel k).stopped = true ↔
    ∃ limit ∈ c.config.expiry, ∃ s, limit < c.silence (c.intake events) s r.now
  /-- also where that is no whole number of milliseconds. -/
  finer : ∀ nanoseconds, c.config.expiry = some (nanoseconds / 1000000) →
    (((r.step (.due (.poll k))).channel k).stopped = true ↔
      ∃ s, nanoseconds < c.silence (c.intake events) s r.now * 1000000)
  /-- If not, nothing happens at all. -/
  spares : (∀ limit ∈ c.config.expiry, ∀ s, c.silence (c.intake events) s r.now ≤ limit) →
    r.step (.due (.poll k)) = r
  /-- Every datagram that a closed end gets ends the silence, and so does every one that an open
  end gets from the address of its peer. -/
  heard : ∀ s (x : Datagram), x.side = s →
    (∀ a, c.config.policy.peer? s (c.intake events) = some a → x.sender.ip = a.ip) →
      ∀ now, c.silence (c.intake events ++ [x]) s now = c.age now - c.age x.now
  /-- What the other end gets, or an open one from somebody else, does not. -/
  unheard : ∀ s (x : Datagram), (x.side ≠ s ∨
      ∃ a, c.config.policy.peer? s (c.intake events) = some a ∧ x.sender.ip ≠ a.ip) →
    ∀ now, c.silence (c.intake events ++ [x]) s now = c.silence (c.intake events) s now

/-- However a channel has been used since its start, each check of the watchdog does what it
should. -/
theorem watchdog_exact (hc : Ready c) (events : List Event)
    (hgoing : (c.start.after events).stopped = false) (hretire : ∀ s, .retire s ∉ events)
    (r : Relay) (k : ChannelRef) (hr : r.channel k = c.start.after events) :
    Watched c events r k := by
  have h := hc.attained events (hc.attended events hgoing hretire)
  have hstarted : (c.start.after events).started = true :=
    Ran.started ⟨events, rfl⟩ hc.started_start
  have hpoll : r.step (.due (.poll k)) =
      if (c.start.after events).isExpired r.now then (Relay.stopChannel k).exec r else r := by
    rw [Relay.step_due_poll, hr, hstarted, hgoing]
    rfl
  have hstops : ((r.step (.due (.poll k))).channel k).stopped = true ↔
      ∃ limit ∈ c.config.expiry, ∃ s, limit < c.silence (c.intake events) s r.now := by
    rw [← h.isExpired_iff, hpoll]
    cases (c.start.after events).isExpired r.now with
    | true => simp [Relay.stopped_stopChannel_iff]
    | false => simp [hr, hgoing]
  refine ⟨hstops, fun nanoseconds hlimit => ?_, fun hspares => ?_, fun s x => silence_snoc_of_heard,
    fun s x => silence_snoc_of_unheard⟩
  · rw [hstops, hlimit]
    simp [Nat.div_lt_iff_lt_mul]
  · rw [hpoll, if_neg]
    rw [h.isExpired_iff]
    rintro ⟨limit, hlimit, s, hlong⟩
    exact Nat.not_lt_of_le (hspares limit hlimit s) hlong

/-- Both peers are let in. Then the one is heard a hundred seconds later, but where the other was
there is only a stranger. -/
def deserted : List Event :=
  greetings.drop 1 ++ [.datagram .dst 100000000000 (peerAt 2 7000) [1, 2, 3],
    .datagram .src 110000000000 (peerAt 9 6001) [1, 2, 3]]

theorem watchdog_exact_deserted :
    let r (now : Nat) : Relay := { config := {}, channels := [pair.start.after deserted], now }
    (((r 120001000000).step (.due (.poll 0))).channel 0).stopped = true ∧
      (r 120000999999).step (.due (.poll 0)) = r 120000999999 := by
  intro r
  have hwatched (now : Nat) : Watched pair deserted (r now) 0 :=
    watchdog_exact ready_pair deserted (by decide)
      (fun s => by cases s <;> simp [deserted, greetings]) (r now) 0 rfl
  refine ⟨(hwatched _).stops.mpr ⟨120000, rfl, .src, by decide⟩,
    (hwatched _).spares fun limit hlimit s => ?_⟩
  obtain rfl : 120000 = limit := Option.some.inj hlimit
  cases s <;> decide

end PeerRelay.Channel
