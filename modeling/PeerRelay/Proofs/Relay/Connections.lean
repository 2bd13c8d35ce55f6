import Mathlib.Data.List.Nodup
import PeerRelay.Proofs.Registry
import PeerRelay.Proofs.Relay.Counting
import PeerRelay.Proofs.Relay.Logins

/-!
# Connections and their places

A connection takes a place before a session begins on it, and the place is given back when
the session ends, or when it could not begin. The sessions that run are the live ones, each
of them has one place, and all other places that are taken wait for a session.
-/

namespace PeerRelay.Relay

open Steps

variable {r r' r'' : Relay}

/-! ## Counting sessions -/

/-- How many of the sessions there ever were have a property. -/
def tally (r : Relay) (p : SessionRef → Bool) : Nat := (List.range r.sessions.length).countP p

theorem tally_le (r : Relay) (p : SessionRef → Bool) : r.tally p ≤ r.sessions.length := by
  have hle := List.countP_le_length (p := p) (l := List.range r.sessions.length)
  rwa [List.length_range] at hle

theorem countP_and_not_add {α : Type} {p q : α → Bool} (h : ∀ a, q a = true → p a = true)
    (xs : List α) : xs.countP (fun a => p a && !q a) + xs.countP q = xs.countP p := by
  induction xs with
  | nil => rfl
  | cons x xs ih =>
      have hx := h x
      simp only [List.countP_cons]
      cases hp : p x <;> cases hq : q x <;> simp_all <;> omega

/-- Of those that have one property, some have a narrower one and the others have not. -/
theorem tally_and_not_add {p q : SessionRef → Bool} (h : ∀ s, q s = true → p s = true) :
    r.tally (fun s => p s && !q s) + r.tally q = r.tally p :=
  countP_and_not_add h _

theorem tally_congr {p q : SessionRef → Bool} (h : ∀ s < r.sessions.length, p s = q s) :
    r.tally p = r.tally q := by
  refine List.countP_congr fun s hs => ?_
  rw [h s (List.mem_range.mp hs)]

/-- Sessions that come in without having the property do not count. -/
theorem tally_of_le {p : SessionRef → Bool} (hle : r.sessions.length ≤ r'.sessions.length)
    (h : ∀ s, r.sessions.length ≤ s → p s = false) : r'.tally p = r.tally p := by
  obtain ⟨n, hn⟩ := Nat.exists_eq_add_of_le hle
  have hnone : ((List.range n).map (r.sessions.length + ·)).countP p = 0 := by
    refine List.countP_eq_zero.mpr fun s hs => ?_
    obtain ⟨m, -, rfl⟩ := List.mem_map.mp hs
    rw [h _ (Nat.le_add_right ..)]
    exact Bool.false_ne_true
  rw [tally, hn, List.range_add, List.countP_append, hnone, Nat.add_zero]
  rfl

/-- One session more has the property. -/
theorem tally_or_eq {p : SessionRef → Bool} {s : SessionRef} (hs : s < r.sessions.length)
    (hp : p s = false) : r.tally (fun t => p t || t == s) = r.tally p + 1 := by
  have hsplit := tally_and_not_add (r := r) (p := fun t => p t || t == s) (q := p)
    fun t ht => by simp [ht]
  have hone : r.tally (fun t => (p t || t == s) && !p t) = 1 := by
    have hcount : r.tally (· == s) = 1 :=
      List.count_eq_one_of_mem List.nodup_range (List.mem_range.mpr hs)
    rw [← hcount]
    refine tally_congr fun t _ => ?_
    by_cases hts : t = s
    · simp [hts, hp]
    · cases hpt : p t <;> simp [hts]
  omega

/-! ## Who is connected -/

/-- Who is connected, what is counted of that, and the limit on it are what they were. -/
structure SameSeats (r r' : Relay) : Prop where
  config : r'.config = r.config
  live : r'.live = r.live
  connections : r'.connections = r.connections
  running : r'.sessions.map Session.running = r.sessions.map Session.running
  active : r'.metrics.activeSessions = r.metrics.activeSessions
  counted : r'.metrics.sessions = r.metrics.sessions

namespace SameSeats

theorem refl (r : Relay) : SameSeats r r := ⟨rfl, rfl, rfl, rfl, rfl, rfl⟩

theorem trans (h : SameSeats r r') (h' : SameSeats r' r'') : SameSeats r r'' where
  config := h'.config.trans h.config
  live := h'.live.trans h.live
  connections := h'.connections.trans h.connections
  running := h'.running.trans h.running
  active := h'.active.trans h.active
  counted := h'.counted.trans h.counted

instance : Std.Refl SameSeats := ⟨refl⟩

instance : Trans SameSeats SameSeats SameSeats := ⟨trans⟩

theorem of_uncounted (h : Uncounted r r') : SameSeats r r' where
  config := h.config
  live := h.live
  connections := h.connections
  running := by
    have hfst := congrArg (List.map Prod.fst) h.sessions
    rw [List.map_map, List.map_map] at hfst
    exact hfst
  active := by rw [h.metrics]
  counted := by rw [h.metrics]

theorem session_running (h : SameSeats r r') (s : SessionRef) :
    (r'.session s).running = (r.session s).running := by
  have hget := congrArg (·.getD s Session.vacant.running) h.running
  simpa only [List.getD_map, session] using hget

theorem length_sessions (h : SameSeats r r') : r'.sessions.length = r.sessions.length := by
  simpa only [List.length_map] using congrArg List.length h.running

end SameSeats

theorem counting_sameSeats : Counting fun _ p => p.Each SameSeats where
  quiet h := h.mono fun _ _ => .of_uncounted
  bind := each_bind

theorem stopChannel_sameSeats (c : ChannelRef) : (stopChannel c).Each SameSeats :=
  counting_sameSeats.stopChannel (fun _ => each_atomic fun _ => ⟨rfl, rfl, rfl, rfl, rfl, rfl⟩)
    (fun _ => each_modify fun _ => ⟨rfl, rfl, rfl, rfl, rfl, rfl⟩) c

theorem discardChannel_sameSeats (c : ChannelRef) : (discardChannel c).Each SameSeats :=
  counting_sameSeats.composed.discardChannel
    (fun id => counting_sameSeats.quiet (forgetChannel_uncounted id)) stopChannel_sameSeats c

theorem createChannel_sameSeats (src : SessionRef) (id : SessionId) :
    (createChannel src id).Each SameSeats :=
  counting_sameSeats.createChannel
    (fun _ _ => each_atomic fun _ => ⟨rfl, rfl, rfl, rfl, rfl, rfl⟩) stopChannel_sameSeats src id

theorem receive_sameSeats (s : SessionRef) (data : Bytes) : (receive s data).Each SameSeats := by
  have hcount {f : Metrics → Metrics} (hactive : ∀ m, (f m).activeSessions = m.activeSessions)
      (hcounted : ∀ m, (f m).sessions = m.sessions) :
      (Steps.modify fun r : Relay => r.count f).Each SameSeats :=
    each_modify fun r => ⟨rfl, rfl, rfl, rfl, hactive r.metrics, hcounted r.metrics⟩
  refine counting_sameSeats.receive
    (counting_sameSeats.serveFrame
      (counting_sameSeats.serveLogin (hcount (fun _ => rfl) fun _ => rfl)
        (hcount (fun _ => rfl) fun _ => rfl))
      (counting_sameSeats.serveProxy createChannel_sameSeats))
    (hcount (fun _ => rfl) fun _ => rfl)
    (fun s unread => each_modify fun r => ?_) s data
  exact ⟨rfl, rfl, rfl, map_modify_of_eq .vacant rfl, rfl, rfl⟩

theorem datagram_sameSeats (c : ChannelRef) (side : Side) (sender : SocketAddr) (data : Bytes) :
    (datagram c side sender data).Each SameSeats := by
  refine each_modify fun r => ?_
  have hactive (outcome : Channel.Outcome) (m : Metrics) :
      (countOutcome side outcome m).activeSessions = m.activeSessions ∧
        (countOutcome side outcome m).sessions = m.sessions := by
    cases outcome <;> cases side <;> exact ⟨rfl, rfl⟩
  exact ⟨rfl, rfl, rfl, rfl, (hactive _ _).1, (hactive _ _).2⟩

/-! ## The end of a session -/

theorem running_marked (r : Relay) (s t : SessionRef) :
    ((r.marked s).session t).running = true ↔ (r.session t).running = true ∧ t ≠ s := by
  have hmarked : (r.marked s).session t = _ := session_modifySession r s t _
  rw [hmarked]
  by_cases hst : s = t
  · subst hst
    by_cases hs : s < r.sessions.length
    · simp [hs]
    · simp [hs, session_of_le (Nat.le_of_not_lt hs), Session.vacant]
  · simp [hst, Ne.symm hst]

/-- Up to its last part the end of a session only says that the session has ended. -/
theorem dismissed_sameSeats (r : Relay) (s : SessionRef) :
    SameSeats (r.marked s) ((dismiss s).exec ((stopChannels s).exec (r.marked s))) := by
  have hstop := rel_exec_of_each (counting_sameSeats.stopChannels stopChannel_sameSeats s)
    (r.marked s)
  exact hstop.trans (.of_uncounted (rel_exec_of_each (dismiss_uncounted s) _))

theorem exec_detach (r : Relay) (s : SessionRef) :
    (detach s).exec r =
      if s ∈ r.live.keys then
        { r with
          live := r.live.erase s
          connections := r.connections - 1
          metrics := r.metrics.sessionClosed }
      else r := by
  by_cases hs : s ∈ r.live.keys
  · have hdrop : (dropLive s).run r = (true, { r with live := r.live.erase s }) := by
      simp only [dropLive, run_atomic, Registry.contains_iff.mpr hs]
    rw [if_pos hs]
    simp only [exec, detach, run_bind, hdrop, if_true, releaseConnection, run_modify]
    rfl
  · have hdrop : (dropLive s).run r = (false, r) := by
      simp only [dropLive, run_atomic, Bool.eq_false_iff.mpr (mt Registry.contains_iff.mp hs),
        Registry.erase_of_not_mem hs]
    rw [if_neg hs]
    simp only [exec, detach, run_bind, hdrop, Bool.false_eq_true, if_false, run_pure]

theorem sessions_detach (r : Relay) (s : SessionRef) :
    ((detach s).exec r).sessions = r.sessions := by
  rw [exec_detach]
  split <;> rfl

/-- Of all sessions only the one that is ended stops running. -/
theorem running_stopSession (r : Relay) (s t : SessionRef) :
    (((stopSession s).exec r).session t).running = true ↔
      (r.session t).running = true ∧ t ≠ s := by
  by_cases hrun : (r.session s).running = true
  · have hdetach := sessions_detach ((dismiss s).exec ((stopChannels s).exec (r.marked s))) s
    rw [stopSession_of_running hrun, session, hdetach, ← session,
      (dismissed_sameSeats r s).session_running, running_marked]
  · rw [stopSession_of_ended (Bool.eq_false_iff.mpr hrun)]
    constructor
    · intro ht
      refine ⟨ht, ?_⟩
      rintro rfl
      exact hrun ht
    · exact And.left

/-- No session begins, and none that has ended comes back. -/
structure NoneBegun (r r' : Relay) : Prop where
  length : r'.sessions.length = r.sessions.length
  running : ∀ s, (r'.session s).running = true → (r.session s).running = true

namespace NoneBegun

theorem trans (h : NoneBegun r r') (h' : NoneBegun r' r'') : NoneBegun r r'' where
  length := h'.length.trans h.length
  running s hs := h.running s (h'.running s hs)

theorem of_sameSeats (h : SameSeats r r') : NoneBegun r r' where
  length := h.length_sessions
  running s hs := (h.session_running s).symm.trans hs

theorem stopSession (s : SessionRef) (r : Relay) : NoneBegun r ((stopSession s).exec r) where
  length := by
    by_cases hrun : (r.session s).running = true
    · rw [stopSession_of_running hrun, sessions_detach,
        (dismissed_sameSeats r s).length_sessions, length_marked]
    · rw [stopSession_of_ended (Bool.eq_false_iff.mpr hrun)]
  running t ht := ((running_stopSession r s t).mp ht).1

end NoneBegun

/-! ## Events that bring no connection -/

/-- An event by which a connection comes, or by which one that has a place becomes a session
or nothing. -/
def Event.Connects : Event → Prop
  | .connect .. | .reserve | .begin .. | .abandon => True
  | _ => False

/-- What leaves the seats alone has a property, and so has the end of a session: then every
event that brings no connection has it. -/
theorem event_of_seats {T : (α : Type) → Op α → Prop}
    (hquiet : ∀ {α : Type} {p : Op α}, p.Each SameSeats → T α p)
    (hbind : ∀ {α β : Type} {p : Op α} {f : α → Op β}, T α p → (∀ a, T β (f a)) → T β (p >>= f))
    (hsession : ∀ s, T Unit (stopSession s)) {e : Event} (he : ¬ e.Connects) : T Unit e.op := by
  have hcounting : Counting T :=
    ⟨fun h => hquiet (h.mono fun _ _ => .of_uncounted), hbind⟩
  refine hcounting.event (fun c => hquiet (stopChannel_sameSeats c)) hsession fun harrive => ?_
  cases e with
  | bytes s data => exact hquiet (receive_sameSeats s data)
  | datagram => exact hquiet (datagram_sameSeats ..)
  | connect | reserve | begin | abandon => exact absurd trivial he
  | disconnect | due | closeSession | closeChannel | stopAll | pass | sync => exact harrive.elim

theorem NoneBegun.step (r : Relay) {e : Event} (he : ¬ e.Connects) : NoneBegun r (r.step e) := by
  refine event_of_seats (T := fun _ p => ∀ r, NoneBegun r (p.exec r))
    (fun h r => .of_sameSeats (rel_exec_of_each h r)) (fun hp hf r => ?_) NoneBegun.stopSession he r
  rw [exec_bind]
  exact (hp r).trans (hf _ _)

/-! ## The live sessions -/

/-- The live sessions are those that run, and the metrics tell how many there are and how many
there ever were. -/
structure Attached (r : Relay) : Prop where
  live : ∀ s, s ∈ r.live.keys ↔ (r.session s).running = true
  active : r.metrics.activeSessions = r.live.size
  counted : r.metrics.sessions = UInt64.ofNat r.sessions.length

/-- What the end of a live session does to who is connected. -/
theorem exec_stopSession_seats {s : SessionRef} (hrun : (r.session s).running = true)
    (hmem : s ∈ r.live.keys) :
    ((stopSession s).exec r).config = r.config ∧
      ((stopSession s).exec r).live = r.live.erase s ∧
      ((stopSession s).exec r).connections = r.connections - 1 ∧
      ((stopSession s).exec r).metrics.activeSessions = r.metrics.activeSessions - 1 ∧
      ((stopSession s).exec r).metrics.sessions = r.metrics.sessions := by
  have hseats : SameSeats (r.marked s) ((dismiss s).exec ((stopChannels s).exec (r.marked s))) :=
    dismissed_sameSeats r s
  rw [stopSession_of_running hrun, exec_detach]
  generalize (dismiss s).exec ((stopChannels s).exec (r.marked s)) = r₁ at *
  have hlive : r₁.live = r.live := hseats.live
  have hconnections : r₁.connections = r.connections := hseats.connections
  have hactive : r₁.metrics.activeSessions = r.metrics.activeSessions := hseats.active
  rw [hlive, if_pos hmem]
  refine ⟨hseats.config, rfl, congrArg (· - 1) hconnections, ?_, hseats.counted⟩
  exact congrArg (· - 1) hactive

namespace Attached

theorem sameSeats (h : Attached r) (hs : SameSeats r r') : Attached r' where
  live s := by rw [hs.live, hs.session_running, h.live]
  active := by rw [hs.active, hs.live, h.active]
  counted := by rw [hs.counted, hs.length_sessions, h.counted]

theorem stopSession (h : Attached r) (s : SessionRef) : Attached ((stopSession s).exec r) := by
  by_cases hrun : (r.session s).running = true
  · have hmem := (h.live s).mpr hrun
    obtain ⟨-, hlive, -, hactive, hcounted⟩ := exec_stopSession_seats hrun hmem
    refine ⟨fun t => ?_, ?_, ?_⟩
    · rw [running_stopSession, ← h.live, hlive]
      exact Registry.mem_keys_erase
    · have hpos := Registry.size_pos_of_mem hmem
      rw [hactive, h.active, hlive, Registry.size_erase_of_mem hmem]
      omega
    · rw [hcounted, h.counted, (NoneBegun.stopSession s r).length]
  · rwa [stopSession_of_ended (Bool.eq_false_iff.mpr hrun)]

/-- What a session that begins adds to who is connected. -/
theorem live_startSession (h : Attached r) (role : Role) (peer localAddr : SocketAddr)
    (held : Bool) :
    ((startSession role peer localAddr held).exec r).live.keys =
      r.live.keys ++ [r.sessions.length] ∧
      ((startSession role peer localAddr held).exec r).live.size = r.live.size + 1 := by
  have hnew : r.sessions.length ∉ r.live.keys := by
    intro hmem
    exact absurd (lt_of_running ((h.live _).mp hmem)) (Nat.lt_irrefl _)
  obtain ⟨live, hinsert⟩ := Registry.insert?_of_not_mem hnew ()
  have hlive : ((startSession role peer localAddr held).exec r).live = live := by
    change (r.live.insert? r.sessions.length ()).getD r.live = live
    rw [hinsert, Option.getD_some]
  rw [hlive]
  exact ⟨Registry.keys_of_insert? hinsert, Registry.size_of_insert? hinsert⟩

theorem startSession (h : Attached r) (role : Role) (peer localAddr : SocketAddr)
    (held : Bool) : Attached ((startSession role peer localAddr held).exec r) := by
  obtain ⟨hkeys, hsize⟩ := h.live_startSession role peer localAddr held
  refine ⟨fun s => ?_, ?_, ?_⟩
  · rw [hkeys, session_startSession, List.mem_append, List.mem_singleton, h.live]
    by_cases hs : s = r.sessions.length
    · simp [hs]
    · simp [hs]
  · rw [hsize, Int.natCast_add, ← h.active]
    rfl
  · change r.metrics.sessions + 1 = UInt64.ofNat (r.sessions ++ [_]).length
    rw [h.counted, List.length_append, List.length_singleton, UInt64.ofNat_add]
    rfl

theorem reserveConnection (h : Attached r) : Attached (reserveConnection.exec r) := by
  change Attached (if r.hasCapacity then _ else _ : Bool × Relay).2
  split <;> exact ⟨h.live, h.active, h.counted⟩

theorem step (h : Attached r) (e : Event) : Attached (r.step e) := by
  by_cases he : e.Connects
  · cases e with
    | connect role peer localAddr =>
        simp only [Relay.step, Event.op, accept, exec_bind]
        split
        · exact h.reserveConnection.startSession role peer localAddr false
        · exact h.reserveConnection
    | reserve => exact h.reserveConnection
    | begin role peer localAddr => exact h.startSession role peer localAddr false
    | abandon => exact ⟨h.live, h.active, h.counted⟩
    | bytes | disconnect | datagram | due | closeSession | closeChannel | stopAll | pass
    | sync => exact he.elim
  · refine event_of_seats (T := fun _ p => ∀ r, Attached r → Attached (p.exec r))
      (fun h r hr => hr.sameSeats (rel_exec_of_each h r)) (fun hp hf r hr => ?_)
      (fun s r hr => hr.stopSession s) he r h
    rw [exec_bind]
    exact hf _ _ (hp r hr)

theorem after (h : Attached r) (events : List Event) : Attached (r.after events) := by
  induction events generalizing r with
  | nil => exact h
  | cons e events ih => exact ih (h.step e)

/-- The live sessions are counted by going through all sessions. -/
theorem size_live (h : Attached r) : r.live.size = r.tally fun s => (r.session s).running := by
  have hperm : r.live.keys.Perm
      ((List.range r.sessions.length).filter fun s => (r.session s).running) := by
    have hnodup : r.live.keys.Nodup := r.live.nodup
    refine (List.perm_ext_iff_of_nodup hnodup (List.nodup_range.filter _)).mpr fun s => ?_
    rw [h.live, List.mem_filter, List.mem_range]
    exact ⟨fun hs => ⟨lt_of_running hs, hs⟩, And.right⟩
  rw [tally, List.countP_eq_length_filter, ← hperm.length_eq, Registry.keys, List.length_map]
  rfl

end Attached

theorem attached_init (config : Config) : Attached { config } where
  live s := by simp [session, Session.vacant]
  active := rfl
  counted := rfl

/-- Live is who runs, after every run. -/
theorem attached_after (config : Config) (events : List Event) :
    Attached (Relay.after { config } events) :=
  (attached_init config).after events

/-! ## Places -/

/-- Each place that is taken is one of a live session, or one of so many that wait for a
session. -/
structure Seated (limit waiting : Nat) (r : Relay) : Prop extends Attached r where
  bound : r.config.maxSessions = limit
  connections : r.connections = r.live.size + waiting
  le : 0 < limit → r.connections ≤ limit

namespace Seated

variable {limit n : Nat}

theorem sameSeats (h : Seated limit n r) (hs : SameSeats r r') : Seated limit n r' where
  toAttached := h.toAttached.sameSeats hs
  bound := by rw [hs.config, h.bound]
  connections := by rw [hs.connections, hs.live, h.connections]
  le := by
    rw [hs.connections]
    exact h.le

/-- A session that ends takes its place with it, and nobody else's. -/
theorem stopSession (h : Seated limit n r) (s : SessionRef) :
    Seated limit n ((stopSession s).exec r) := by
  by_cases hrun : (r.session s).running = true
  · have hmem := (h.live s).mpr hrun
    obtain ⟨hconfig, hlive, hconnections, -⟩ := exec_stopSession_seats hrun hmem
    refine ⟨h.toAttached.stopSession s, by rw [hconfig, h.bound], ?_, fun hmax => ?_⟩
    · -- The place that is given back is the one of a live session, so the count is above zero.
      have hplace := h.connections
      have hpos := Registry.size_pos_of_mem hmem
      have hsize := Registry.size_erase_of_mem hmem
      rw [hconnections, hlive]
      omega
    · rw [hconnections]
      exact Nat.le_trans (Nat.sub_le ..) (h.le hmax)
  · rwa [stopSession_of_ended (Bool.eq_false_iff.mpr hrun)]

/-- An event that brings no connection leaves the places that wait alone. -/
theorem step (h : Seated limit n r) {e : Event} (he : ¬ e.Connects) :
    Seated limit n (r.step e) := by
  refine event_of_seats (T := fun _ p => ∀ r, Seated limit n r → Seated limit n (p.exec r))
    (fun h r hr => hr.sameSeats (rel_exec_of_each h r)) (fun hp hf r hr => ?_)
    (fun s r hr => hr.stopSession s) he r h
  rw [exec_bind]
  exact hf _ _ (hp r hr)

end Seated

/-! ## Connections that come -/

theorem hasCapacity_iff (r : Relay) :
    r.hasCapacity = true ↔ r.config.maxSessions = 0 ∨ r.connections < r.config.maxSessions := by
  simp [hasCapacity]

/-- A place is taken exactly if there is room. -/
theorem run_reserveConnection (r : Relay) :
    reserveConnection.run r =
      (r.hasCapacity,
        if r.hasCapacity then { r with connections := r.connections + 1 }
        else r.count Metrics.connectionRejected) := by
  cases hroom : r.hasCapacity <;> simp [reserveConnection, hroom]

namespace Seated

variable {limit n : Nat}

theorem reserveConnection (h : Seated limit n r) :
    Seated limit (if r.hasCapacity then n + 1 else n) (reserveConnection.exec r) := by
  have hattached := h.toAttached.reserveConnection
  rw [exec, run_reserveConnection] at hattached ⊢
  by_cases hroom : r.hasCapacity = true
  · rw [if_pos hroom] at hattached
    rw [if_pos hroom, if_pos hroom]
    refine ⟨hattached, h.bound, ?_, fun hmax => ?_⟩
    · change r.connections + 1 = r.live.size + (n + 1)
      rw [h.connections, Nat.add_assoc]
    · have hless := (hasCapacity_iff r).mp hroom
      rw [h.bound] at hless
      exact hless.resolve_left (Nat.ne_of_gt hmax)
  · rw [if_neg hroom] at hattached
    rw [if_neg hroom, if_neg hroom]
    exact ⟨hattached, h.bound, h.connections, h.le⟩

/-- A session that begins on a place that waits is a live one from then on. -/
theorem startSession (h : Seated limit (n + 1) r) (role : Role) (peer localAddr : SocketAddr)
    (held : Bool) : Seated limit n ((startSession role peer localAddr held).exec r) := by
  have hsize := (h.toAttached.live_startSession role peer localAddr held).2
  have hplace := h.connections
  refine ⟨h.toAttached.startSession role peer localAddr held, h.bound, ?_, h.le⟩
  rw [hsize]
  change r.connections = _
  omega

theorem releaseConnection (h : Seated limit (n + 1) r) :
    Seated limit n (releaseConnection.exec r) := by
  have hplace := h.connections
  refine ⟨⟨h.live, h.active, h.counted⟩, h.bound, ?_, fun hmax =>
    Nat.le_trans (Nat.sub_le ..) (h.le hmax)⟩
  change r.connections - 1 = r.live.size + n
  omega

theorem accept (h : Seated limit n r) (role : Role) (peer localAddr : SocketAddr)
    (held : Bool) : Seated limit n ((accept role peer localAddr held).exec r) := by
  have hreserved := h.reserveConnection
  have hrun := run_reserveConnection r
  simp only [Relay.accept, exec_bind, hrun]
  cases hroom : r.hasCapacity with
  | true =>
      rw [hroom, if_pos rfl] at hreserved
      rw [if_pos rfl, exec_bind]
      exact hreserved.startSession role peer localAddr held
  | false =>
      rw [hroom] at hreserved
      exact hreserved

end Seated

/-! ## Runs -/

/-- How many places wait for a session after events, if so many waited before. There is no
answer if a session begins without a place, or a place is given up that nobody has taken. -/
def waiting (r : Relay) (n : Nat) : List Event → Option Nat
  | [] => some n
  | .reserve :: events => (r.step .reserve).waiting (if r.hasCapacity then n + 1 else n) events
  | .begin role peer localAddr :: events =>
    match n with
    | 0 => none
    | n + 1 => (r.step (.begin role peer localAddr)).waiting n events
  | .abandon :: events =>
    match n with
    | 0 => none
    | n + 1 => (r.step .abandon).waiting n events
  | e :: events => (r.step e).waiting n events

/-- A run that takes a place before each session keeps account of the places. -/
theorem Seated.after {limit n m : Nat} (h : Seated limit n r) {events : List Event}
    (hrun : r.waiting n events = some m) : Seated limit m (r.after events) := by
  induction events generalizing r n with
  | nil =>
      cases hrun
      exact h
  | cons e events ih =>
      cases e with
      | connect role peer localAddr =>
          refine ih ?_ hrun
          simp only [Relay.step, Event.op, exec_bind]
          exact h.accept role peer localAddr false
      | reserve =>
          refine ih ?_ hrun
          simp only [Relay.step, Event.op, exec_bind]
          exact h.reserveConnection
      | begin role peer localAddr =>
          cases n with
          | zero => cases hrun
          | succ n =>
              refine ih ?_ hrun
              simp only [Relay.step, Event.op, exec_bind]
              exact h.startSession role peer localAddr false
      | abandon =>
          cases n with
          | zero => cases hrun
          | succ n => exact ih h.releaseConnection hrun
      | bytes | disconnect | datagram | due | closeSession | closeChannel | stopAll | pass
      | sync => exact ih (h.step id) hrun

theorem seated_init (config : Config) : Seated config.maxSessions 0 { config } where
  toAttached := attached_init config
  bound := rfl
  connections := rfl
  le _ := Nat.zero_le _

/-! ## The account -/

/-- How many sessions ran and do not run any more. -/
def endings (r r' : Relay) : Nat :=
  r.tally fun s => (r.session s).running && !(r'.session s).running

/-- Each session that ends gives one place back. -/
theorem Seated.step_ended {limit n : Nat} (h : Seated limit n r) {e : Event}
    (he : ¬ e.Connects) : (r.step e).connections + endings r (r.step e) = r.connections := by
  have hstep := h.step he
  have hnone := NoneBegun.step r he
  have hafter : (r.step e).live.size = r.tally fun s => ((r.step e).session s).running := by
    rw [hstep.size_live, tally, hnone.length]
    rfl
  have hcount := tally_and_not_add (r := r) hnone.running
  rw [h.connections, hstep.connections, hafter, h.size_live, endings]
  omega

/-- An event that brings a connection ends no session. -/
theorem running_of_connects {e : Event} (he : e.Connects) {s : SessionRef}
    (hs : (r.session s).running = true) : ((r.step e).session s).running = true := by
  have hstart (role : Role) (peer localAddr : SocketAddr) {r : Relay}
      (hs : (r.session s).running = true) :
      (((startSession role peer localAddr false).exec r).session s).running = true := by
    rw [session_startSession, if_neg (Nat.ne_of_lt (lt_of_running hs))]
    exact hs
  have hreserve : ((reserveConnection.exec r).session s).running = true := by
    have hsame := rel_exec_of_each reserveConnection_sameSessions r
    rwa [session, hsame.sessions]
  cases e with
  | connect role peer localAddr =>
      simp only [Relay.step, Event.op, accept, exec_bind]
      split
      · exact hstart role peer localAddr hreserve
      · exact hreserve
  | reserve => exact hreserve
  | begin role peer localAddr => exact hstart role peer localAddr hs
  | abandon => exact hs
  | bytes | disconnect | datagram | due | closeSession | closeChannel | stopAll | pass | sync =>
      exact he.elim

/-- Every place that is taken is accounted for. -/
structure PlacesAccounted (limit waiting : Nat) (r : Relay) : Prop where
  /-- A place is a live session's, or it waits for a session to begin on it. -/
  connections : r.connections = r.live.size + waiting
  /-- The sessions that have begun and not ended are the live ones. -/
  live : ∀ s, s ∈ r.live.keys ↔ (r.session s).running = true
  le : 0 < limit → r.connections ≤ limit
  /-- There is room as long as live sessions and waiting places do not fill the limit. -/
  room : r.hasCapacity = true ↔ limit = 0 ∨ r.live.size + waiting < limit
  /-- Where there is room the next connection gets a place, and otherwise it gets none. -/
  reserve : (reserveConnection.run r).1 = r.hasCapacity ∧
    (reserveConnection.exec r).connections = r.connections + if r.hasCapacity then 1 else 0
  /-- Of the sessions that an event ends each gives back its place, -/
  given_back : ∀ e : Event, ¬ e.Connects →
    (r.step e).connections + endings r (r.step e) = r.connections
  /-- and no session ends in another way. -/
  ended_by : ∀ (e : Event) (s : SessionRef), (r.session s).running = true →
    ((r.step e).session s).running = false → ¬ e.Connects
  /-- However often a session is ended, its place is given back once. -/
  once : ∀ s, ((stopSession s).exec r).connections + (if (r.session s).running then 1 else 0) =
    r.connections
  /-- When all sessions have ended and no place waits for one, all are free. -/
  drained : (∀ s, (r.session s).running = false) → waiting = 0 → r.connections = 0

theorem Seated.stopSession_connections {limit n : Nat} (h : Seated limit n r) (s : SessionRef) :
    ((Relay.stopSession s).exec r).connections + (if (r.session s).running then 1 else 0) =
      r.connections := by
  by_cases hrun : (r.session s).running = true
  · have hmem := (h.live s).mpr hrun
    have hpos := Registry.size_pos_of_mem hmem
    have hplace := h.connections
    rw [(exec_stopSession_seats hrun hmem).2.2.1, if_pos hrun]
    omega
  · rw [stopSession_of_ended (Bool.eq_false_iff.mpr hrun), if_neg hrun, Nat.add_zero]

theorem Seated.accounted {limit n : Nat} (h : Seated limit n r) : PlacesAccounted limit n r where
  connections := h.connections
  live := h.live
  le := h.le
  room := by rw [hasCapacity_iff, h.bound, h.connections]
  reserve := by
    rw [exec, run_reserveConnection]
    refine ⟨rfl, ?_⟩
    cases r.hasCapacity <;> rfl
  given_back _ := h.step_ended
  ended_by e s hs hover he := by
    rw [running_of_connects he hs] at hover
    cases hover
  once := h.stopSession_connections
  drained hover hnone := by
    have hsize : r.live.size = 0 := by
      rw [h.size_live, tally, List.countP_eq_zero]
      exact fun s _ => by simp [hover s]
    rw [h.connections, hsize, hnone]

/-- Whatever the limit is, and whatever happens to the sessions: as long as every session
begins on a place that was taken for it, the places are accounted for. -/
theorem places_accounted (config : Config) (events : List Event) (n : Nat)
    (hrun : Relay.waiting { config } 0 events = some n) :
    PlacesAccounted config.maxSessions n (Relay.after { config } events) :=
  ((seated_init config).after hrun).accounted

/-- With two places, a third connection is turned away until a session has ended. In the end
all sessions are over, one start has failed, and one place waits. -/
def crowded : List Event :=
  let client (port : UInt16) : SocketAddr := ⟨.v4 ⟨192, 0, 2, 1⟩, port, 0⟩
  let listener : SocketAddr := ⟨.v4 .unspecified, 8801, 0⟩
  [.connect .client (client 4000) listener, .reserve, .connect .client (client 4001) listener,
    .disconnect 0, .disconnect 0, .connect .client (client 4002) listener,
    .begin .client (client 4003) listener, .stopAll, .reserve, .abandon, .reserve]

theorem places_accounted_crowded :
    Relay.waiting { config := { maxSessions := 2 } } 0 crowded = some 1 ∧
      PlacesAccounted 2 1 (Relay.after { config := { maxSessions := 2 } } crowded) := by
  have hrun : Relay.waiting { config := { maxSessions := 2 } } 0 crowded = some 1 := by
    decide +kernel
  exact ⟨hrun, places_accounted { maxSessions := 2 } crowded 1 hrun⟩

end PeerRelay.Relay
