import PeerRelay.Proofs.Directory
import PeerRelay.Proofs.Relay.LoginRuns

/-!
# The directory and the sessions

A session is on offer while it is logged in and others may find it. Every login and every
logout of such a session is queued for the directory. When the queue has been worked off,
the directory has the records of exactly the sessions on offer: the peer table has the
first of them in the order of their ids, and the store has all of them.
-/

namespace PeerRelay

open Steps
open Directory (Holds Memory)

/-- What the directory is told of a session. -/
def Session.record (s : Session) : Record := ⟨s.id, s.peer.ip.wireIpv4, s.guid⟩

namespace Relay

variable {r r' r'' : Relay} {s : SessionRef} {record : Record}

/-- A session that is logged in and that others may find. -/
def OnOffer (r : Relay) (s : SessionRef) : Prop :=
  (r.session s).loggedIn = true ∧ (r.session s).role.isDiscoverable = true

instance (r : Relay) (s : SessionRef) : Decidable (r.OnOffer s) :=
  inferInstanceAs (Decidable (_ ∧ _))

/-- The record is that of a session on offer. -/
def Offered (r : Relay) (record : Record) : Prop :=
  ∃ s, r.OnOffer s ∧ (r.session s).record = record

theorem OnOffer.lt (h : r.OnOffer s) : s < r.sessions.length := by
  refine Nat.lt_of_not_le fun hs => ?_
  have hin := h.1
  rw [session_of_le hs] at hin
  cases hin

/-! ## What leaves the offers alone -/

/-- The directory has nothing new to learn, and nothing new was queued for it. -/
structure SameOffers (r r' : Relay) : Prop where
  directory : r'.directory = r.directory
  offered : ∀ record, r'.Offered record ↔ r.Offered record

namespace SameOffers

theorem refl (r : Relay) : SameOffers r r := ⟨rfl, fun _ => Iff.rfl⟩

theorem trans (h : SameOffers r r') (h' : SameOffers r' r'') : SameOffers r r'' where
  directory := h'.directory.trans h.directory
  offered record := (h'.offered record).trans (h.offered record)

instance : Std.Refl SameOffers := ⟨refl⟩

instance : Trans SameOffers SameOffers SameOffers := ⟨trans⟩

/-- Every session is on offer as before, under the same record. -/
theorem of_session (hdirectory : r'.directory = r.directory)
    (hoffer : ∀ s, r'.OnOffer s ↔ r.OnOffer s)
    (hrecord : ∀ s, r.OnOffer s → (r'.session s).record = (r.session s).record) :
    SameOffers r r' := by
  refine ⟨hdirectory, fun record => exists_congr fun s => ?_⟩
  constructor
  · rintro ⟨hs, rfl⟩
    have hs' := (hoffer s).mp hs
    exact ⟨hs', (hrecord s hs').symm⟩
  · rintro ⟨hs, rfl⟩
    exact ⟨(hoffer s).mpr hs, hrecord s hs⟩

theorem of_congr (hdirectory : r'.directory = r.directory)
    (hsame : ∀ s, (r'.session s).loggedIn = (r.session s).loggedIn ∧
      (r'.session s).role = (r.session s).role ∧
      (r'.session s).record = (r.session s).record) : SameOffers r r' := by
  refine of_session hdirectory (fun s => ?_) fun s _ => (hsame s).2.2
  rw [OnOffer, OnOffer, (hsame s).1, (hsame s).2.1]

theorem of_eq (hdirectory : r'.directory = r.directory) (hsessions : r'.sessions = r.sessions) :
    SameOffers r r' := by
  have hsession (s : SessionRef) : r'.session s = r.session s := by
    rw [session, hsessions, session]
  exact of_congr hdirectory fun s => by rw [hsession]; exact ⟨rfl, rfl, rfl⟩

end SameOffers

theorem SameLogins.sameOffers (h : SameLogins r r') : SameOffers r r' :=
  .of_congr h.directory fun s =>
    ⟨h.loggedIn s, h.role s, h.congr Session.record (fun _ => rfl) s⟩

theorem reserveConnection_sameOffers : reserveConnection.Each SameOffers := by
  refine each_atomic fun r => ?_
  split <;> exact .of_eq rfl rfl

theorem releaseConnection_sameOffers : releaseConnection.Each SameOffers :=
  each_modify fun _ => .of_eq rfl rfl

theorem detach_sameOffers (s : SessionRef) : (detach s).Each SameOffers :=
  composed_each.detach (each_atomic fun _ => .of_eq rfl rfl) releaseConnection_sameOffers
    (each_modify fun _ => .of_eq rfl rfl)

/-- A new session is not on offer yet. -/
theorem startSession_sameOffers (role : Role) (peer localAddr : SocketAddr) (held : Bool) :
    (startSession role peer localAddr held).Each SameOffers := by
  refine each_atomic fun r => ?_
  have hsession := session_startSession role peer localAddr held r
  generalize hr' : (startSession role peer localAddr held).exec r = r' at hsession
  have hnew : ¬ r'.OnOffer r.sessions.length := by
    rw [OnOffer, hsession, if_pos rfl]
    exact fun h => nomatch h.1
  have hold {s : SessionRef} (hs : s ≠ r.sessions.length) : r'.session s = r.session s := by
    rw [hsession, if_neg hs]
  change SameOffers r ((startSession role peer localAddr held).exec r)
  rw [hr']
  refine .of_session (hr' ▸ rfl) (fun s => ?_) fun s hs => by rw [hold (Nat.ne_of_lt hs.lt)]
  by_cases hs : s = r.sessions.length
  · subst hs
    exact iff_of_false hnew fun h => absurd h.lt (Nat.lt_irrefl _)
  · rw [OnOffer, OnOffer, hold hs]

theorem accept_sameOffers (role : Role) (peer localAddr : SocketAddr) (held : Bool) :
    (accept role peer localAddr held).Each SameOffers :=
  composed_each.accept reserveConnection_sameOffers startSession_sameOffers role peer localAddr
    held

theorem marked_sameOffers (r : Relay) (s : SessionRef) : SameOffers r (r.marked s) :=
  .of_congr rfl fun t => ⟨marked_congr Session.loggedIn (fun _ => rfl) t,
    marked_congr Session.role (fun _ => rfl) t, marked_congr Session.record (fun _ => rfl) t⟩

/-! ## Logins and logouts -/

/-- What was last published is a peer table, and the directory, once it has worked off its
queue, has the records of the sessions on offer. -/
structure Posted (r : Relay) : Prop where
  running : r.directory.running = true
  peerTable : ∃ peers, r.peerTable = PeerTable.encode peers
  holds : Holds (r.directory.applied Memory.backend) r.Offered

namespace Posted

theorem same (h : Posted r) (hsame : SameOffers r r') : Posted r' := by
  constructor
  · rw [hsame.directory]
    exact h.running
  · rw [Relay.peerTable, hsame.directory]
    exact h.peerTable
  · rw [hsame.directory]
    exact h.holds.congr hsame.offered

theorem of_enqueue (h : Posted r) {op : Directory.Op}
    (hdirectory : r'.directory = r.directory.enqueue op)
    (hholds : Holds ((r.directory.applied Memory.backend).apply Memory.backend op) r'.Offered) :
    Posted r' := by
  constructor
  · rw [hdirectory, Directory.running_enqueue]
    exact h.running
  · rw [Relay.peerTable, hdirectory, Directory.snapshot_enqueue]
    exact h.peerTable
  · rw [hdirectory, Directory.applied_enqueue h.running]
    exact hholds

theorem of_each {α : Type} {p : Op α} (h : Posted r) (hp : p.Each SameOffers) :
    Posted (p.exec r) :=
  h.same (rel_exec_of_each hp r)

theorem quiet {α : Type} {p : Op α} (h : Posted r) (hp : p.Each SameLogins) :
    Posted (p.exec r) :=
  h.same (rel_exec_of_each hp r).sameOffers

end Posted

/-- Two sessions on offer are never known by one id, even when ids come round. -/
theorem Logins.onOffer_inj (h : Logins r) {t : SessionRef} (hs : r.OnOffer s) (ht : r.OnOffer t)
    (hid : (r.session s).id = (r.session t).id) : s = t := by
  have hfound := (h.index_get _ s).mpr ⟨hs.1, hs.2, hid⟩
  have hfound' := (h.index_get _ t).mpr ⟨ht.1, ht.2, rfl⟩
  rw [hfound] at hfound'
  exact Option.some.inj hfound'

theorem Logins.offered_inj (h : Logins r) {other : Record} (hrecord : r.Offered record)
    (hother : r.Offered other) (hguid : other.guid = record.guid) : other = record := by
  obtain ⟨s, hs, rfl⟩ := hrecord
  obtain ⟨t, ht, rfl⟩ := hother
  rw [h.guid_inj t s ht.1 hs.1 hguid]

namespace Posted

variable {header : Wire.Header} {guid : Guid} {privateAddr : Ipv4}

/-- A login puts the session on offer, if it is one to be found. -/
theorem admitted (h : Posted r) (hl : Logins r) (hout : (r.session s).loggedIn = false)
    (ha : Admitted s header guid privateAddr r r') : Posted r' := by
  have hdirectory := ha.directory
  have hold {t : SessionRef} (ht : r.OnOffer t) : t ≠ s := by
    rintro rfl
    cases hout.symm.trans ht.1
  have hself : r'.OnOffer s ↔ (r.session s).role.isDiscoverable = true := by
    rw [OnOffer, ha.self]
    exact and_iff_right rfl
  have hother {t : SessionRef} (ht : t ≠ s) : r'.OnOffer t ↔ r.OnOffer t := by
    rw [OnOffer, OnOffer, ha.other ht]
  by_cases hd : (r.session s).role.isDiscoverable = true
  · rw [announced, if_pos hd] at hdirectory
    have hindex := ha.index
    rw [if_pos hd] at hindex
    have hnew (record : Record) (hrecord : r.Offered record) :
        record.id ≠ r.nextSessionId ∧ record.guid ≠ guid := by
      obtain ⟨t, ht, rfl⟩ := hrecord
      constructor
      · intro hid
        have hmem := Registry.mem_keys_iff.mpr ⟨t, (hl.index_get _ t).mpr ⟨ht.1, ht.2, hid⟩⟩
        rw [Registry.insert?_eq_none_iff.mpr hmem] at hindex
        cases hindex
      · intro hguid
        exact ha.guid_free ((hl.guid_mem guid).mpr ⟨t, ht.1, hguid⟩)
    refine h.of_enqueue hdirectory ((h.holds.add hnew).congr fun record => ?_)
    constructor
    · rintro ⟨t, ht, rfl⟩
      by_cases hts : t = s
      · subst hts
        rw [ha.self]
        exact .inl rfl
      · exact .inr ⟨t, (hother hts).mp ht, by rw [ha.other hts]⟩
    · rintro (rfl | ⟨t, ht, rfl⟩)
      · exact ⟨s, hself.mpr hd, by rw [ha.self]; rfl⟩
      · exact ⟨t, (hother (hold ht)).mpr ht, by rw [ha.other (hold ht)]⟩
  · rw [announced, if_neg hd] at hdirectory
    refine h.same (.of_session hdirectory (fun t => ?_) fun t ht => by rw [ha.other (hold ht)])
    by_cases hts : t = s
    · subst hts
      exact iff_of_false (fun ht => hd (hself.mp ht)) fun ht => hold ht rfl
    · exact hother hts

theorem skipped (h : Posted r) (hs : Skipped s header r r') : Posted r' :=
  h.same (.of_congr hs.directory fun t => ⟨hs.congr Session.loggedIn (fun _ _ => rfl) t,
    hs.congr Session.role (fun _ _ => rfl) t, hs.congr Session.record (fun _ _ => rfl) t⟩)

/-- A logout takes the session off offer, and no other. -/
theorem dismiss (h : Posted r) (hl : Logins r) (s : SessionRef) :
    Posted ((dismiss s).exec r) := by
  have hrole := dismiss_congr (r := r) (s := s) Session.role fun _ => rfl
  have hrecord := dismiss_congr (r := r) (s := s) Session.record fun _ => rfl
  have hoffer (t : SessionRef) :
      ((Relay.dismiss s).exec r).OnOffer t ↔ r.OnOffer t ∧ t ≠ s := by
    rw [OnOffer, OnOffer, loggedIn_dismiss, hrole, and_right_comm]
  have hdirectory : ((Relay.dismiss s).exec r).directory =
      if r.OnOffer s then r.directory.enqueue (.del (r.session s).id) else r.directory := by
    rw [exec_dismiss]
    dsimp only
    split
    · rename_i hin
      split
      · rename_i hd
        rw [if_pos ⟨hin, hd⟩]
      · rename_i hd
        exact (if_neg fun hs => hd hs.2).symm
    · rename_i hin
      exact (if_neg fun hs => hin hs.1).symm
  generalize (Relay.dismiss s).exec r = r' at *
  by_cases hs : r.OnOffer s
  · rw [if_pos hs] at hdirectory
    refine h.of_enqueue hdirectory ((h.holds.del (r.session s).id fun record other hr ho _ =>
      hl.offered_inj hr ho).congr fun record => ?_)
    constructor
    · rintro ⟨t, ht, rfl⟩
      obtain ⟨ht, hts⟩ := (hoffer t).mp ht
      rw [hrecord]
      exact ⟨⟨t, ht, rfl⟩, fun hid => hts (hl.onOffer_inj ht hs hid)⟩
    · rintro ⟨⟨t, ht, rfl⟩, hid⟩
      refine ⟨t, (hoffer t).mpr ⟨ht, ?_⟩, hrecord t⟩
      rintro rfl
      exact hid rfl
  · rw [if_neg hs] at hdirectory
    refine h.same (.of_session hdirectory (fun t => (hoffer t).trans ?_) fun t _ => hrecord t)
    refine and_iff_left_of_imp fun ht => ?_
    rintro rfl
    exact hs ht

theorem stopSession (h : Posted r) (hset : Settled r) (s : SessionRef) :
    Posted ((stopSession s).exec r) := by
  by_cases hrun : (r.session s).running = true
  · rw [stopSession_of_running hrun]
    have hsame := rel_exec_of_each (stopChannels_sameLogins s) (r.marked s)
    have hl := (hset.logins.congr (marked_credentials r s)).congr hsame.credentials
    have hstopped := (h.same (marked_sameOffers r s)).same hsame.sameOffers
    exact (hstopped.dismiss hl s).of_each (detach_sameOffers s)
  · rw [stopSession_of_ended (Bool.eq_false_iff.mpr hrun)]
    exact h

/-! ## Frames and events -/

theorem servePiece (h : Posted r) (hset : Settled r) (hrun : (r.session s).running = true)
    (piece : Wire.Frame.Piece) : Posted ((servePiece s piece).exec r) := by
  cases piece with
  | skip m1 m2 version => exact h.quiet (each_modify fun r => sameLogins_count _ r)
  | frame frame =>
      unfold Relay.servePiece serveFrame
      dsimp only
      split
      · exact h
      · rename_i guid privateAddr _
        rcases serveLogin_cases hrun frame.header guid privateAddr with
          hsame | ⟨hskipped, -⟩ | ⟨hout, hadmitted⟩
        · exact h.same hsame.sameOffers
        · exact h.skipped hskipped
        · exact h.admitted hset.logins hout hadmitted
      · exact h.quiet (serveProxy_sameLogins ..)
      · exact h.quiet (servePeers_sameLogins ..)
      · exact h.quiet (refuseMalformed_sameLogins ..)
      · exact h

theorem servePieces (h : Posted r) (hset : Settled r) (hrun : (r.session s).running = true)
    (pieces : List Wire.Frame.Piece) : Posted ((servePieces s pieces).exec r) := by
  induction pieces generalizing r with
  | nil => exact h
  | cons piece rest ih =>
      obtain ⟨hpiece, hstill⟩ := hset.servePiece hrun piece
      rw [exec_servePieces_cons piece rest hstill]
      exact ih (h.servePiece hset hrun piece) hpiece hstill

/-- Working off the queue changes nothing about what will be there when it is worked off. -/
theorem sync (h : Posted r) : Posted r.syncDirectory := by
  have hdirectory : r.syncDirectory.directory = r.directory.applied Memory.backend := by
    rw [syncDirectory, Directory.sync_of_running h.running]
  constructor
  · rw [hdirectory, Directory.running_applied]
    exact h.running
  · rw [Relay.peerTable, hdirectory]
    exact ⟨_, h.holds.snapshot⟩
  · rw [hdirectory, Directory.applied_applied]
    exact h.holds

/-- Every event keeps the directory in step with the sessions. -/
theorem step (h : Posted r) (hset : Settled r) (e : Event) : Posted (r.step e) := by
  cases e with
  | connect role peer localAddr =>
      exact h.of_each (each_bind (accept_sameOffers ..) fun _ => each_pure _)
  | reserve => exact h.of_each (each_bind reserveConnection_sameOffers fun _ => each_pure _)
  | begin role peer localAddr =>
      exact h.of_each (each_bind (startSession_sameOffers ..) fun _ => each_pure _)
  | abandon => exact h.of_each releaseConnection_sameOffers
  | bytes s data =>
      by_cases hrun : (r.session s).running = true
      · have hsame := sameLogins_unread r s (Wire.Frame.drain ((r.session s).unread ++ data)).2
        rw [step_bytes hrun]
        exact (h.same hsame.sameOffers).servePieces (hset.sameLogins hsame)
          ((hsame.running s).trans hrun) _
      · rw [step_bytes_of_ended (Bool.eq_false_iff.mpr hrun)]
        exact h
  | disconnect s => exact h.stopSession hset s
  | datagram c side sender data => exact h.quiet (datagram_sameLogins ..)
  | due duty =>
      cases duty with
      | login s =>
          rw [step_due_login]
          split
          · exact h
          · exact h.stopSession hset s
      | poll c =>
          rw [step_due_poll]
          split
          · exact h.quiet (stopChannel_sameLogins c)
          · exact h
      | report c => exact h.quiet (report_sameLogins c)
  | closeSession id =>
      rw [step_closeSession]
      split
      · exact h
      · exact h.stopSession hset _
  | closeChannel id =>
      rw [step_closeChannel]
      split
      · exact h
      · exact h.quiet (stopChannel_sameLogins _)
  | stopAll =>
      rw [step_stopAll]
      exact (forM_exec_induct (P := fun r => Posted r ∧ Settled r)
        (fun s _ h => ⟨h.1.stopSession h.2 s, h.2.stopSession s⟩) _ _ ⟨h, hset⟩).1
  | pass nanoseconds => exact h.same (.of_eq rfl rfl)
  | sync => exact h.sync

theorem after (h : Posted r) (hset : Settled r) (events : List Event) :
    Posted (r.after events) := by
  induction events generalizing r with
  | nil => exact h
  | cons e rest ih => exact ih (h.step hset e) (hset.step e)

end Posted

theorem posted_init (config : Config) : Posted { config } := by
  refine ⟨rfl, ⟨[], rfl⟩, ⟨.nil, fun record => ?_, rfl, List.nodup_nil, fun record => ?_⟩⟩
  all_goals
    refine iff_of_false List.not_mem_nil ?_
    rintro ⟨s, hs, -⟩
    exact absurd hs.lt (Nat.not_lt_zero s)

/-! ## What the directory shows after a run -/

end Relay

end PeerRelay
