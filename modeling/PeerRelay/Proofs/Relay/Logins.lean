import PeerRelay.Proofs.Registry
import PeerRelay.Proofs.Relay.Frame

/-!
# Logins over whole runs

The guid set, the index and the counter of session ids are kept apart from the
sessions, and login, refusal and the end of a session each touch some of them.
The invariant says that they always tell the same as the sessions do.
-/

namespace PeerRelay.Relay

open Steps

def sessionIdAt (n : Nat) : SessionId := idAt firstSessionId n

/-- Guid set, index and id counter agree with the sessions. -/
structure Logins (r : Relay) : Prop where
  guid_mem : ∀ guid, guid ∈ r.guids.keys ↔
    ∃ s, (r.session s).loggedIn = true ∧ (r.session s).guid = guid
  guid_inj : ∀ s t, (r.session s).loggedIn = true → (r.session t).loggedIn = true →
    (r.session s).guid = (r.session t).guid → s = t
  index_get : ∀ id s, r.index.get? id = some s ↔
    (r.session s).loggedIn = true ∧ (r.session s).role.isDiscoverable = true ∧
      (r.session s).id = id
  issued_eq : r.issued = (List.range r.issued.length).map sessionIdAt
  next_eq : r.nextSessionId = sessionIdAt r.issued.length
  id_mem : ∀ s, (r.session s).loggedIn = true ∨ (r.session s).id ≠ 0 →
    (r.session s).id ∈ r.issued
  /-- No id is given twice as long as the counter has not come round. -/
  id_inj : r.issued.length ≤ 2 ^ 32 - 1000 → ∀ s t, (r.session s).id ≠ 0 →
    (r.session s).id = (r.session t).id → s = t

/-- Whoever is logged in is still there, apart from a session that is just ending. -/
def Present (r : Relay) (ending : SessionRef → Prop) : Prop :=
  ∀ s, (r.session s).loggedIn = true → (r.session s).running = true ∨ ending s

/-! ## Ids -/

theorem sessionIdAt_toNat {n : Nat} (h : n < 2 ^ 32 - 1000) :
    (sessionIdAt n).toNat = 1000 + n := by
  have hfirst : firstSessionId.toNat = 1000 := rfl
  rw [sessionIdAt, idAt_toNat (by omega), hfirst]

theorem sessionIdAt_succ (n : Nat) : sessionIdAt n + 1 = sessionIdAt (n + 1) := idAt_succ ..

theorem sessionIdAt_ne_zero {n : Nat} (h : n < 2 ^ 32 - 1000) : sessionIdAt n ≠ 0 := by
  intro h0
  have := sessionIdAt_toNat h
  rw [h0] at this
  have h00 : (0 : SessionId).toNat = 0 := rfl
  omega

theorem sessionIdAt_lt {m n : Nat} (hmn : m < n) (hn : n < 2 ^ 32 - 1000) :
    sessionIdAt m < sessionIdAt n := by
  rw [UInt32.lt_iff_toNat_lt, sessionIdAt_toNat hn, sessionIdAt_toNat (Nat.lt_trans hmn hn)]
  omega

namespace Logins

variable {r r' : Relay}

theorem mem_issued_iff (h : Logins r) {id : SessionId} :
    id ∈ r.issued ↔ ∃ n < r.issued.length, sessionIdAt n = id := by
  rw [h.issued_eq]
  simp

/-- The ids handed out stay the first ones when the next is handed out. -/
theorem issued_succ (h : Logins r) (hr : r'.issued = r.issued ++ [r.nextSessionId]) :
    r'.issued = (List.range r'.issued.length).map sessionIdAt := by
  have hlen : r'.issued.length = r.issued.length + 1 := by simp [hr]
  rw [hlen, List.range_succ, List.map_append, ← h.issued_eq, hr, h.next_eq]
  rfl

/-- The next id is greater than all before as long as the counter has not come round. -/
theorem lt_next (h : Logins r) (hn : r.issued.length < 2 ^ 32 - 1000) {id : SessionId}
    (hid : id ∈ r.issued) : id < r.nextSessionId := by
  obtain ⟨m, hm, rfl⟩ := h.mem_issued_iff.mp hid
  rw [h.next_eq]
  exact sessionIdAt_lt hm hn

theorem next_not_mem (h : Logins r) (hn : r.issued.length < 2 ^ 32 - 1000) :
    r.nextSessionId ∉ r.issued :=
  fun hmem => absurd (h.lt_next hn hmem) (by simp)

theorem next_not_indexed (h : Logins r) (hn : r.issued.length < 2 ^ 32 - 1000) :
    r.nextSessionId ∉ r.index.keys := by
  rw [Registry.mem_keys_iff]
  rintro ⟨s, hs⟩
  obtain ⟨hin, -, hid⟩ := (h.index_get _ s).mp hs
  have hmem := h.id_mem s (.inl hin)
  rw [hid] at hmem
  exact h.next_not_mem hn hmem

theorem issued_pairwise (h : Logins r) (hn : r.issued.length ≤ 2 ^ 32 - 1000) :
    r.issued.Pairwise (· < ·) := by
  rw [h.issued_eq, List.pairwise_map]
  refine List.pairwise_lt_range.imp_of_mem fun {m n} _ hmem hmn => sessionIdAt_lt hmn ?_
  have := List.mem_range.mp hmem
  omega

theorem le_of_mem_issued (h : Logins r) (hn : r.issued.length ≤ 2 ^ 32 - 1000) {id : SessionId}
    (hid : id ∈ r.issued) : 1000 ≤ id := by
  obtain ⟨m, hm, rfl⟩ := h.mem_issued_iff.mp hid
  rw [UInt32.le_iff_toNat_le, sessionIdAt_toNat (by omega)]
  exact Nat.le_add_right 1000 m

theorem ne_zero_of_mem_issued (h : Logins r) (hn : r.issued.length ≤ 2 ^ 32 - 1000)
    {id : SessionId} (hid : id ∈ r.issued) : id ≠ 0 := by
  obtain ⟨m, hm, rfl⟩ := h.mem_issued_iff.mp hid
  exact sessionIdAt_ne_zero (by omega)

end Logins

/-! ## What leaves the logins alone -/

/-- Every session's credentials, and what is kept of them, are what they were. -/
structure SameCredentials (r r' : Relay) : Prop where
  role : ∀ s, (r.session s).loggedIn = true → (r'.session s).role = (r.session s).role
  loggedIn : ∀ s, (r'.session s).loggedIn = (r.session s).loggedIn
  id : ∀ s, (r'.session s).id = (r.session s).id
  guid : ∀ s, (r'.session s).guid = (r.session s).guid
  guids : r'.guids = r.guids
  index : r'.index = r.index
  nextSessionId : r'.nextSessionId = r.nextSessionId
  issued : r'.issued = r.issued

theorem SameLogins.credentials {r r' : Relay} (h : SameLogins r r') : SameCredentials r r' :=
  ⟨fun s _ => h.role s, h.loggedIn, h.id, h.guid, h.guids, h.index, h.nextSessionId, h.issued⟩

/-- Sessions, and what is kept of them, are untouched. -/
structure SameSessions (r r' : Relay) : Prop where
  sessions : r'.sessions = r.sessions
  guids : r'.guids = r.guids
  index : r'.index = r.index
  nextSessionId : r'.nextSessionId = r.nextSessionId
  issued : r'.issued = r.issued

namespace SameSessions

variable {r r' r'' : Relay}

theorem refl (r : Relay) : SameSessions r r := ⟨rfl, rfl, rfl, rfl, rfl⟩

theorem trans (h : SameSessions r r') (h' : SameSessions r' r'') : SameSessions r r'' where
  sessions := h'.sessions.trans h.sessions
  guids := h'.guids.trans h.guids
  index := h'.index.trans h.index
  nextSessionId := h'.nextSessionId.trans h.nextSessionId
  issued := h'.issued.trans h.issued

instance : Std.Refl SameSessions := ⟨refl⟩

instance : Trans SameSessions SameSessions SameSessions := ⟨trans⟩

end SameSessions

theorem reserveConnection_sameSessions : reserveConnection.Each SameSessions := by
  refine each_atomic fun r => ?_
  split <;> exact ⟨rfl, rfl, rfl, rfl, rfl⟩

theorem releaseConnection_sameSessions : releaseConnection.Each SameSessions :=
  each_modify fun _ => ⟨rfl, rfl, rfl, rfl, rfl⟩

theorem detach_sameSessions (s : SessionRef) : (detach s).Each SameSessions := by
  have hdrop : (dropLive s).Each SameSessions := each_atomic fun _ => ⟨rfl, rfl, rfl, rfl, rfl⟩
  refine each_bind hdrop fun dropped => ?_
  split
  · refine each_bind releaseConnection_sameSessions fun _ => ?_
    exact each_modify fun _ => ⟨rfl, rfl, rfl, rfl, rfl⟩
  · exact each_pure _

theorem Logins.congr {r r' : Relay} (h : Logins r) (hc : SameCredentials r r') : Logins r' where
  guid_mem guid := by
    simp only [hc.guids, hc.loggedIn, hc.guid]
    exact h.guid_mem guid
  guid_inj s t := by
    simp only [hc.loggedIn, hc.guid]
    exact h.guid_inj s t
  index_get id s := by
    rw [hc.index, hc.loggedIn, hc.id, h.index_get]
    refine and_congr_right fun hs => ?_
    rw [hc.role s hs]
  issued_eq := by
    rw [hc.issued]
    exact h.issued_eq
  next_eq := by
    rw [hc.nextSessionId, hc.issued]
    exact h.next_eq
  id_mem s := by
    simp only [hc.loggedIn, hc.id, hc.issued]
    exact h.id_mem s
  id_inj := by
    simp only [hc.id, hc.issued]
    exact h.id_inj

theorem Present.congr {r r' : Relay} {ending : SessionRef → Prop} (h : Present r ending)
    (hl : ∀ s, (r'.session s).loggedIn = (r.session s).loggedIn)
    (hr : ∀ s, (r'.session s).running = (r.session s).running) : Present r' ending := by
  intro s
  rw [hl, hr]
  exact h s

/-- Between two events the logins agree, and whoever is logged in is there. -/
structure Settled (r : Relay) : Prop where
  logins : Logins r
  present : Present r fun _ => False

namespace Settled

variable {r r' : Relay}

theorem congr (h : Settled r) (hc : SameCredentials r r')
    (hr : ∀ s, (r'.session s).running = (r.session s).running) : Settled r' :=
  ⟨h.logins.congr hc, h.present.congr hc.loggedIn hr⟩

theorem sameLogins (h : Settled r) (hs : SameLogins r r') : Settled r' :=
  h.congr hs.credentials hs.running

theorem sameSessions (h : Settled r) (hs : SameSessions r r') : Settled r' := by
  have hsame {α : Type} (g : Session → α) (s : SessionRef) :
      g (r'.session s) = g (r.session s) := by rw [session, hs.sessions, session]
  exact h.congr ⟨fun s _ => hsame Session.role s, hsame Session.loggedIn, hsame Session.id,
    hsame Session.guid, hs.guids, hs.index, hs.nextSessionId, hs.issued⟩ (hsame Session.running)

theorem running (h : Settled r) {s : SessionRef} (hs : (r.session s).loggedIn = true) :
    (r.session s).running = true :=
  (h.present s hs).resolve_right not_false

end Settled

theorem settled_init (config : Config) : Settled { config } := by
  have hvacant (s : SessionRef) : Relay.session { config } s = .vacant := session_of_le s.zero_le
  have hout (s : SessionRef) : (Relay.session { config } s).loggedIn = false := by
    rw [hvacant]
    rfl
  have hid (s : SessionRef) : (Relay.session { config } s).id = 0 := by
    rw [hvacant]
    rfl
  refine ⟨⟨?_, ?_, ?_, rfl, rfl, ?_, ?_⟩, ?_⟩
  · intro guid
    constructor
    · intro hmem
      cases hmem
    · rintro ⟨s, hs, -⟩
      cases (hout s).symm.trans hs
  · intro s t hs
    cases (hout s).symm.trans hs
  · intro id s
    constructor
    · intro hget
      cases hget
    · rintro ⟨hs, -⟩
      cases (hout s).symm.trans hs
  · rintro s (hs | hs)
    · cases (hout s).symm.trans hs
    · exact absurd (hid s) hs
  · intro _ s t hs
    exact absurd (hid s) hs
  · intro s hs
    cases (hout s).symm.trans hs

/-! ## The beginning of a session -/

theorem session_startSession (role : Role) (peer localAddr : SocketAddr) (held : Bool)
    (r : Relay) (s : SessionRef) :
    ((startSession role peer localAddr held).exec r).session s =
      if s = r.sessions.length then { role, peer, localAddr, held, startedAt := r.now }
      else r.session s :=
  session_append r _ s

/-- A new session is nobody yet. -/
theorem startSession_congr {r : Relay} {role : Role} {peer localAddr : SocketAddr} {held : Bool}
    {α : Type} (g : Session → α)
    (hg : g .vacant = g { role, peer, localAddr, held, startedAt := r.now }) (s : SessionRef) :
    g (((startSession role peer localAddr held).exec r).session s) = g (r.session s) := by
  rw [session_startSession]
  split
  · rw [‹s = _›, session_of_le (Nat.le_refl _), hg]
  · rfl

theorem Settled.startSession_credentials {r : Relay} (h : Settled r) (role : Role)
    (peer localAddr : SocketAddr) (held : Bool) :
    SameCredentials r ((startSession role peer localAddr held).exec r) := by
  refine ⟨fun s hs => ?_, startSession_congr Session.loggedIn rfl,
    startSession_congr Session.id rfl, startSession_congr Session.guid rfl, rfl, rfl, rfl, rfl⟩
  rw [session_startSession, if_neg (Nat.ne_of_lt (lt_of_running (h.running hs)))]

theorem Settled.startSession {r : Relay} (h : Settled r) (role : Role)
    (peer localAddr : SocketAddr) (held : Bool) :
    Settled ((startSession role peer localAddr held).exec r) := by
  refine ⟨h.logins.congr (h.startSession_credentials role peer localAddr held), ?_⟩
  intro s hs
  rw [startSession_congr Session.loggedIn rfl] at hs
  have hrun := h.running hs
  rw [session_startSession, if_neg (Nat.ne_of_lt (lt_of_running hrun))]
  exact .inl hrun

/-! ## The end of a session -/

/-- What a dismissal does: the session is logged out, and the relay forgets its guid,
its index entry, and its line in the directory. -/
theorem exec_dismiss (r : Relay) (s : SessionRef) :
    (dismiss s).exec r =
      let r' := r.modifySession s fun session => { session with loggedIn := false }
      if (r.session s).loggedIn then
        if (r.session s).role.isDiscoverable then
          { r' with
            guids := r.guids.erase (r.session s).guid
            index := r.index.erase (r.session s).id
            directory := r.directory.enqueue (.del (r.session s).id) }
        else { r' with guids := r.guids.erase (r.session s).guid }
      else r' := by
  have hsame {α : Type} (g : Session → α)
      (hg : ∀ x : Session, g { x with loggedIn := false } = g x) :
      g ((r.modifySession s fun x => { x with loggedIn := false }).session s) =
        g (r.session s) := session_modifySession_congr g hg s
  have hguid := hsame Session.guid fun _ => rfl
  have hid := hsame Session.id fun _ => rfl
  have hrole := hsame Session.role fun _ => rfl
  have hclear : (clearLogin s).run r = ((r.session s).loggedIn,
      r.modifySession s fun session => { session with loggedIn := false }) := rfl
  by_cases hs : (r.session s).loggedIn = true
  · simp only [exec, dismiss, run_bind, hclear, hs, if_true, run_read, releaseGuid, run_modify,
      hguid, hid, hrole]
    by_cases hd : (r.session s).role.isDiscoverable = true
    · simp only [hd, if_true]
      rfl
    · simp only [hd, Bool.false_eq_true, if_false]
      rfl
  · simp only [exec, dismiss, run_bind, hclear, hs, Bool.false_eq_true, if_false]
    rfl

theorem session_dismiss (r : Relay) (s t : SessionRef) :
    ((dismiss s).exec r).session t =
      if s = t ∧ t < r.sessions.length then { r.session t with loggedIn := false }
      else r.session t := by
  rw [← session_modifySession r s t fun session => { session with loggedIn := false },
    exec_dismiss]
  dsimp only
  split
  · split <;> rfl
  · rfl

section Dismissal

variable {r : Relay} {s : SessionRef}

theorem dismiss_congr {α : Type} (g : Session → α)
    (hg : ∀ x : Session, g { x with loggedIn := false } = g x) (t : SessionRef) :
    g (((dismiss s).exec r).session t) = g (r.session t) := by
  rw [session_dismiss]
  split
  · exact hg _
  · rfl

theorem loggedIn_dismiss (t : SessionRef) :
    (((dismiss s).exec r).session t).loggedIn = true ↔
      (r.session t).loggedIn = true ∧ t ≠ s := by
  rw [session_dismiss]
  by_cases hst : s = t
  · subst hst
    by_cases hs : s < r.sessions.length
    · simp [hs]
    · simp [hs, session_of_le (Nat.le_of_not_lt hs), Session.vacant]
  · simp [hst, Ne.symm hst]

/-- A dismissal gives guid and index entry back, and nobody else's. -/
theorem Logins.dismiss (h : Logins r) : Logins ((dismiss s).exec r) := by
  have hguids : ((Relay.dismiss s).exec r).guids =
      if (r.session s).loggedIn then r.guids.erase (r.session s).guid else r.guids := by
    rw [exec_dismiss]
    dsimp only
    split
    · split <;> rfl
    · rfl
  have hindex : ((Relay.dismiss s).exec r).index =
      if (r.session s).loggedIn && (r.session s).role.isDiscoverable then
        r.index.erase (r.session s).id else r.index := by
    rw [exec_dismiss]
    cases (r.session s).loggedIn <;> cases (r.session s).role.isDiscoverable <;> rfl
  have hcounter : ((Relay.dismiss s).exec r).nextSessionId = r.nextSessionId ∧
      ((Relay.dismiss s).exec r).issued = r.issued := by
    rw [exec_dismiss]
    dsimp only
    split
    · split <;> exact ⟨rfl, rfl⟩
    · exact ⟨rfl, rfl⟩
  obtain ⟨hnext, hissued⟩ := hcounter
  have hid := dismiss_congr (r := r) (s := s) Session.id fun _ => rfl
  have hguid := dismiss_congr (r := r) (s := s) Session.guid fun _ => rfl
  have hrole := dismiss_congr (r := r) (s := s) Session.role fun _ => rfl
  have hin := loggedIn_dismiss (r := r) (s := s)
  generalize (Relay.dismiss s).exec r = r' at *
  refine ⟨?_, ?_, ?_, hissued ▸ h.issued_eq, ?_, ?_, ?_⟩
  · intro guid
    rw [hguids]
    cases hs : (r.session s).loggedIn with
    | false =>
        rw [if_neg Bool.false_ne_true, h.guid_mem]
        refine exists_congr fun t => ?_
        rw [hin, hguid]
        constructor
        · rintro ⟨ht, hg⟩
          refine ⟨⟨ht, ?_⟩, hg⟩
          rintro rfl
          cases hs.symm.trans ht
        · rintro ⟨⟨ht, -⟩, hg⟩
          exact ⟨ht, hg⟩
    | true =>
        rw [if_pos rfl, Registry.mem_keys_erase, h.guid_mem]
        constructor
        · rintro ⟨⟨t, ht, rfl⟩, hne⟩
          refine ⟨t, (hin t).mpr ⟨ht, ?_⟩, hguid t⟩
          rintro rfl
          exact hne rfl
        · rintro ⟨t, ht, rfl⟩
          obtain ⟨ht, hts⟩ := (hin t).mp ht
          refine ⟨⟨t, ht, (hguid t).symm⟩, fun heq => hts ?_⟩
          exact h.guid_inj t s ht hs ((hguid t).symm.trans heq)
  · intro t u ht hu heq
    rw [hguid, hguid] at heq
    exact h.guid_inj t u ((hin t).mp ht).1 ((hin u).mp hu).1 heq
  · intro id t
    rw [hindex, hin, hrole, hid]
    cases hs : (r.session s).loggedIn && (r.session s).role.isDiscoverable with
    | false =>
        rw [if_neg Bool.false_ne_true, h.index_get]
        constructor
        · rintro ⟨ht, hd, hi⟩
          refine ⟨⟨ht, ?_⟩, hd, hi⟩
          rintro rfl
          simp [ht, hd] at hs
        · rintro ⟨⟨ht, -⟩, hrest⟩
          exact ⟨ht, hrest⟩
    | true =>
        obtain ⟨hs, hd⟩ := Bool.and_eq_true_iff.mp hs
        have hfound := (h.index_get _ s).mpr ⟨hs, hd, rfl⟩
        rw [if_pos rfl, Registry.get?_erase]
        by_cases heq : id = (r.session s).id
        · subst heq
          rw [if_pos rfl]
          constructor
          · intro hnone
            cases hnone
          · -- The id was indexed for one session only, the one that is dismissed.
            rintro ⟨⟨ht, hts⟩, hd, hi⟩
            have hfound' := (h.index_get _ t).mpr ⟨ht, hd, hi⟩
            rw [hfound] at hfound'
            exact absurd (Option.some.inj hfound').symm hts
        · rw [if_neg heq, h.index_get]
          constructor
          · rintro ⟨ht, hd, hi⟩
            refine ⟨⟨ht, ?_⟩, hd, hi⟩
            rintro rfl
            exact heq hi.symm
          · rintro ⟨⟨ht, -⟩, hrest⟩
            exact ⟨ht, hrest⟩
  · rw [hnext, hissued, h.next_eq]
  · intro t ht
    rw [hid] at ht ⊢
    rw [hissued]
    refine h.id_mem t (ht.imp_left fun ht => ?_)
    exact ((hin t).mp ht).1
  · simp only [hid, hissued]
    exact h.id_inj

end Dismissal

theorem marked_credentials (r : Relay) (s : SessionRef) : SameCredentials r (r.marked s) :=
  ⟨fun t _ => marked_congr Session.role (fun _ => rfl) t,
    marked_congr Session.loggedIn fun _ => rfl, marked_congr Session.id fun _ => rfl,
    marked_congr Session.guid fun _ => rfl, rfl, rfl, rfl, rfl⟩

/-- A session that ends leaves nothing of its login behind, whoever ends it. -/
theorem Settled.stopSession {r : Relay} (h : Settled r) (s : SessionRef) :
    Settled ((stopSession s).exec r) := by
  by_cases hrun : (r.session s).running = true
  · rw [stopSession_of_running hrun]
    -- Until it is dismissed, the session is logged in without running, as no other is.
    have hmarked : Logins (r.marked s) := h.logins.congr (marked_credentials r s)
    have hpresent : Present (r.marked s) (· = s) := by
      intro t ht
      by_cases hst : s = t
      · exact .inr hst.symm
      · have hsame : (r.marked s).session t = r.session t :=
          (session_modifySession r s t _).trans (if_neg fun hc => hst hc.1)
        rw [hsame] at ht ⊢
        exact .inl (h.running ht)
    have hstop := rel_exec_of_each (stopChannels_sameLogins s) (r.marked s)
    have hstopped := hpresent.congr hstop.loggedIn hstop.running
    have hdismissed : Settled ((dismiss s).exec ((stopChannels s).exec (r.marked s))) := by
      refine ⟨(hmarked.congr hstop.credentials).dismiss, ?_⟩
      intro t ht
      obtain ⟨ht, hts⟩ := (loggedIn_dismiss t).mp ht
      rw [dismiss_congr Session.running fun _ => rfl]
      exact .inl ((hstopped t ht).resolve_right hts)
    exact hdismissed.sameSessions (rel_exec_of_each (detach_sameSessions s) _)
  · rw [stopSession_of_ended (Bool.eq_false_iff.mpr hrun)]
    exact h

end PeerRelay.Relay
