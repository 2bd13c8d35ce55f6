import PeerRelay.Proofs.Relay.Logins

/-!
# What a login request does

A login request either changes nothing but the client's outbox, or it makes the
session known by a guid that nobody holds and by the next id. There is a third
way only when the id counter has come round: the id is skipped.
-/

namespace PeerRelay.Relay

open Steps

variable {r r' : Relay} {s : SessionRef} {header : Wire.Header} {guid : Guid} {privateAddr : Ipv4}

/-- The session after its client was let in and told so. -/
def welcome (header : Wire.Header) (id : SessionId) (guid : Guid) (privateAddr : Ipv4)
    (session : Session) : Session :=
  Session.push { session with id, guid, privateAddr, loggedIn := true } header (.login .success id)

/-- The directory when it was told of a login under the next id, if the session is one to
be found. -/
def announced (s : SessionRef) (guid : Guid) (r : Relay) : Directory Directory.Memory :=
  if (r.session s).role.isDiscoverable then
    r.directory.enqueue (.add ⟨r.nextSessionId, (r.session s).peer.ip.wireIpv4, guid⟩)
  else r.directory

/-- The session knows its client, and the relay keeps guid and id for it. -/
structure Admitted (s : SessionRef) (header : Wire.Header) (guid : Guid) (privateAddr : Ipv4)
    (r r' : Relay) : Prop where
  session : ∀ t, r'.session t =
    if s = t then welcome header r.nextSessionId guid privateAddr (r.session s) else r.session t
  guids : r.guids.insert? guid () = some r'.guids
  index : if (r.session s).role.isDiscoverable then
      r.index.insert? r.nextSessionId s = some r'.index
    else r'.index = r.index
  directory : r'.directory = r.announced s guid
  nextSessionId : r'.nextSessionId = r.nextSessionId + 1
  issued : r'.issued = r.issued ++ [r.nextSessionId]

/-- An id went by, and nobody has it. -/
structure Skipped (s : SessionRef) (header : Wire.Header) (r r' : Relay) : Prop where
  session : ∀ t, r'.session t =
    if s = t then (r.session s).push header (.login .failed (r.session s).id) else r.session t
  guids : r'.guids = r.guids
  index : r'.index = r.index
  directory : r'.directory = r.directory
  nextSessionId : r'.nextSessionId = r.nextSessionId + 1
  issued : r'.issued = r.issued ++ [r.nextSessionId]

/-! ## Taking guid and id -/

theorem run_logIn_of_taken (s : SessionRef) (h : guid ∈ r.guids.keys) :
    (logIn s guid).run r = (.error (.duplicateGuid guid), r.count Metrics.loginRefused) := by
  have hreserve : (reserveGuid guid).run r = (false, r) := by
    simp only [reserveGuid, run_atomic, GuidSet.reserve?, Registry.insert?_eq_none_iff.mpr h]
  simp only [logIn, run_bind, hreserve, Bool.false_eq_true, if_false, run_modify, run_pure]

/-- The relay when a guid and the next id were taken. -/
def reserved (guids : GuidSet) (r : Relay) : Relay :=
  { r with guids, nextSessionId := r.nextSessionId + 1, issued := r.issued ++ [r.nextSessionId] }

theorem run_logIn_of_idTaken {guids : GuidSet} (hg : r.guids.insert? guid () = some guids)
    (hd : (r.session s).role.isDiscoverable = true)
    (hi : r.nextSessionId ∈ r.index.keys) :
    (logIn s guid).run r =
      (.error (.idTaken r.nextSessionId), (r.reserved r.guids).count Metrics.loginRefused) := by
  have hreserve : (reserveGuid guid).run r = (true, { r with guids }) := by
    simp only [reserveGuid, run_atomic, GuidSet.reserve?, hg]
  have hindex : (indexSession r.nextSessionId s).run (r.reserved guids) =
      (false, r.reserved guids) := by
    simp only [indexSession, run_atomic, reserved, Registry.insert?_eq_none_iff.mpr hi]
  have htake : takeSessionId.run { r with guids } = (r.nextSessionId, r.reserved guids) := rfl
  have hrole : ((r.reserved guids).session s).role.isDiscoverable = true := hd
  have hback : guids.erase guid = r.guids := Registry.erase_of_insert? hg
  simp only [logIn, run_bind, hreserve, if_true, htake, run_read, hrole, hindex,
    Bool.false_eq_true, if_false, releaseGuid, run_modify, run_pure]
  simp only [reserved, hback]

theorem run_logIn_of_free {guids : GuidSet} (hg : r.guids.insert? guid () = some guids)
    (hi : (r.session s).role.isDiscoverable = true → r.nextSessionId ∉ r.index.keys) :
    ∃ index,
      (logIn s guid).run r =
        (.ok r.nextSessionId,
          ({ r.reserved guids with index, directory := r.announced s guid }).count
            Metrics.loginSucceeded) ∧
      if (r.session s).role.isDiscoverable then r.index.insert? r.nextSessionId s = some index
      else index = r.index := by
  have hreserve : (reserveGuid guid).run r = (true, { r with guids }) := by
    simp only [reserveGuid, run_atomic, GuidSet.reserve?, hg]
  have htake : takeSessionId.run { r with guids } = (r.nextSessionId, r.reserved guids) := rfl
  have hrole : ((r.reserved guids).session s).role = (r.session s).role := rfl
  by_cases hd : (r.session s).role.isDiscoverable = true
  · obtain ⟨index, hindex⟩ := Registry.insert?_of_not_mem (hi hd) s
    have henter : (indexSession r.nextSessionId s).run (r.reserved guids) =
        (true, { r.reserved guids with index }) := by
      simp only [indexSession, run_atomic, reserved, hindex]
    refine ⟨index, ?_, by rw [if_pos hd]; exact hindex⟩
    rw [announced, if_pos hd]
    simp only [logIn, run_bind, hreserve, if_true, htake, run_read, hrole, hd, henter,
      enqueue, run_modify, run_pure]
    rfl
  · refine ⟨r.index, ?_, by rw [if_neg hd]⟩
    rw [announced, if_neg hd]
    simp only [logIn, run_bind, hreserve, if_true, htake, run_read, hrole, hd,
      Bool.false_eq_true, if_false, run_modify, run_pure]
    rfl

/-! ## The answer to a login request -/

theorem exec_serveLogin_of_loggedIn (h : (r.session s).loggedIn = true) :
    (serveLogin s header guid privateAddr).exec r =
      r.modifySession s (·.push header (.login .repeatLogin (r.session s).id)) := by
  simp only [exec, serveLogin, run_bind, run_read, h, if_true, push, run_modify]

theorem exec_serveLogin_of_taken (h : (r.session s).loggedIn = false)
    (hg : guid ∈ r.guids.keys) :
    (serveLogin s header guid privateAddr).exec r =
      (r.count Metrics.loginRefused).modifySession s
        (·.push header (.login .failed (r.session s).id)) := by
  have hlogin := run_logIn_of_taken s hg
  have hexec : (serveLogin s header guid privateAddr).exec r =
      (r.count Metrics.loginRefused).modifySession s (·.push header
        (.login (Refusal.duplicateGuid guid).result
          ((r.count Metrics.loginRefused).session s).id)) := by
    simp only [exec, serveLogin, run_bind, run_read, h, Bool.false_eq_true, if_false, hlogin,
      push, run_modify]
  rw [hexec]
  rfl

theorem serveLogin_of_idTaken (h : (r.session s).loggedIn = false)
    (hrun : (r.session s).running = true) (hg : guid ∉ r.guids.keys)
    (hd : (r.session s).role.isDiscoverable = true) (hi : r.nextSessionId ∈ r.index.keys) :
    Skipped s header r ((serveLogin s header guid privateAddr).exec r) := by
  obtain ⟨guids, hguids⟩ := Registry.insert?_of_not_mem hg ()
  have hlogin := run_logIn_of_idTaken hguids hd hi
  have hexec : (serveLogin s header guid privateAddr).exec r =
      ((r.reserved r.guids).count Metrics.loginRefused).modifySession s
        (·.push header (.login .failed (r.session s).id)) := by
    have hanswer : (serveLogin s header guid privateAddr).exec r =
        ((r.reserved r.guids).count Metrics.loginRefused).modifySession s (·.push header
          (.login (Refusal.idTaken r.nextSessionId).result
            (((r.reserved r.guids).count Metrics.loginRefused).session s).id)) := by
      simp only [exec, serveLogin, run_bind, run_read, h, Bool.false_eq_true, if_false, hlogin,
        push, run_modify]
    rw [hanswer]
    rfl
  rw [hexec]
  refine ⟨?_, rfl, rfl, rfl, rfl, rfl⟩
  intro t
  rw [session_modifySession]
  by_cases hst : s = t
  · subst hst
    rw [if_pos ⟨rfl, lt_of_running hrun⟩, if_pos rfl]
    rfl
  · rw [if_neg (fun hc => hst hc.1), if_neg hst]
    rfl

theorem serveLogin_of_free (h : (r.session s).loggedIn = false)
    (hrun : (r.session s).running = true) (hg : guid ∉ r.guids.keys)
    (hi : (r.session s).role.isDiscoverable = true → r.nextSessionId ∉ r.index.keys) :
    Admitted s header guid privateAddr r ((serveLogin s header guid privateAddr).exec r) := by
  obtain ⟨guids, hguids⟩ := Registry.insert?_of_not_mem hg ()
  obtain ⟨index, hlogin, hindex⟩ := run_logIn_of_free hguids hi
  generalize hr₁ : ({ r.reserved guids with index, directory := r.announced s guid }).count
    Metrics.loginSucceeded = r₁ at hlogin
  have hs₁ : r₁.sessions = r.sessions := by
    rw [← hr₁]
    rfl
  have hsession (t : SessionRef) : r₁.session t = r.session t := by rw [session, hs₁, session]
  generalize hwelcome : welcome header r.nextSessionId guid privateAddr = answered
  have hfinal (t : SessionRef) : ((r₁.modifySession s answered).disarm (.login s)).session t =
      if s = t then answered (r.session s) else r.session t := by
    refine (session_modifySession r₁ s t answered).trans ?_
    rw [hsession, hs₁]
    by_cases hst : s = t
    · subst hst
      rw [if_pos ⟨rfl, lt_of_running hrun⟩, if_pos rfl]
    · rw [if_neg (fun hc => hst hc.1), if_neg hst]
  have hstill : (((r₁.modifySession s answered).disarm (.login s)).session s).running = true := by
    rw [hfinal, if_pos rfl, ← hwelcome]
    exact hrun
  have hexec : (serveLogin s header guid privateAddr).exec r =
      (r₁.modifySession s answered).disarm (.login s) := by
    have hsteps : (((r₁.modifySession s fun session => { session with
          id := r.nextSessionId, guid, privateAddr }).modifySession s fun session =>
          { session with loggedIn := true }).disarm (.login s)).modifySession s
            (·.push header (.login .success r.nextSessionId)) =
        (r₁.modifySession s answered).disarm (.login s) := by
      rw [modifySession_modifySession, ← hwelcome]
      exact congrArg (disarm (.login s)) (modifySession_modifySession ..)
    simp only [exec, serveLogin, run_bind, run_read, h, Bool.false_eq_true, if_false, hlogin,
      recordIdentity, markLoggedIn, push, run_modify, isRunning, hsteps, hstill, Bool.not_true,
      run_pure]
  rw [hexec]
  refine ⟨hwelcome ▸ hfinal, ?_, ?_, ?_, ?_, ?_⟩ <;> subst hr₁
  · exact hguids
  · exact hindex
  · rfl
  · rfl
  · rfl

/-! ## The logins afterwards -/

namespace Skipped

theorem congr {α : Type} (g : Session → α) (h : Skipped s header r r')
    (hg : ∀ x response, g (x.push header response) = g x) (t : SessionRef) :
    g (r'.session t) = g (r.session t) := by
  rw [h.session]
  split
  · subst ‹s = t›
    exact hg _ _
  · rfl

theorem settled (hs : Skipped s header r r') (h : Settled r) : Settled r' := by
  have hl := hs.congr Session.loggedIn fun _ _ => rfl
  have hi := hs.congr Session.id fun _ _ => rfl
  have hlen : r'.issued.length = r.issued.length + 1 := by rw [hs.issued]; simp
  refine ⟨⟨?_, ?_, ?_, ?_, ?_, ?_, ?_⟩, h.present.congr hl (hs.congr _ fun _ _ => rfl)⟩
  · simp only [hs.guids, hl, hs.congr Session.guid fun _ _ => rfl]
    exact h.logins.guid_mem
  · simp only [hl, hs.congr Session.guid fun _ _ => rfl]
    exact h.logins.guid_inj
  · simp only [hs.index, hl, hi, hs.congr Session.role fun _ _ => rfl]
    exact h.logins.index_get
  · exact h.logins.issued_succ hs.issued
  · rw [hs.nextSessionId, hlen, h.logins.next_eq, sessionIdAt_succ]
  · simp only [hl, hi, hs.issued]
    exact fun t ht => List.mem_append_left _ (h.logins.id_mem t ht)
  · simp only [hi, hlen]
    exact fun hn => h.logins.id_inj (by omega)

end Skipped

namespace Admitted

variable (hs : Admitted s header guid privateAddr r r')
include hs

theorem self : r'.session s = welcome header r.nextSessionId guid privateAddr (r.session s) := by
  rw [hs.session, if_pos rfl]

theorem other {t : SessionRef} (ht : t ≠ s) : r'.session t = r.session t := by
  rw [hs.session, if_neg ht.symm]

theorem loggedIn_iff (t : SessionRef) :
    (r'.session t).loggedIn = true ↔ t = s ∨ (r.session t).loggedIn = true := by
  by_cases ht : t = s
  · subst ht
    simp [hs.self, welcome, Session.push]
  · simp [hs.other ht, ht]

theorem guid_free : guid ∉ r.guids.keys := by
  intro h
  have hguids := hs.guids
  rw [Registry.insert?_eq_none_iff.mpr h] at hguids
  cases hguids

theorem guid_mem (h : Logins r) (hout : (r.session s).loggedIn = false) (g : Guid) :
    g ∈ r'.guids.keys ↔ ∃ t, (r'.session t).loggedIn = true ∧ (r'.session t).guid = g := by
  rw [Registry.keys_of_insert? hs.guids, List.mem_append, List.mem_singleton, h.guid_mem]
  constructor
  · rintro (⟨t, ht, rfl⟩ | rfl)
    · have hts : t ≠ s := by
        rintro rfl
        cases hout.symm.trans ht
      exact ⟨t, (hs.loggedIn_iff t).mpr (.inr ht), by rw [hs.other hts]⟩
    · exact ⟨s, (hs.loggedIn_iff s).mpr (.inl rfl), by rw [hs.self]; rfl⟩
  · rintro ⟨t, ht, rfl⟩
    by_cases hts : t = s
    · subst hts
      rw [hs.self]
      exact .inr rfl
    · rw [hs.other hts] at ht ⊢
      exact .inl ⟨t, ht, rfl⟩

theorem guid_inj (h : Logins r) (t u : SessionRef) (ht : (r'.session t).loggedIn = true)
    (hu : (r'.session u).loggedIn = true) (heq : (r'.session t).guid = (r'.session u).guid) :
    t = u := by
  -- The guid was free, so nobody else has it.
  have hfresh {v : SessionRef} (hv : v ≠ s) (hin : (r'.session v).loggedIn = true) :
      (r'.session v).guid ≠ guid := by
    rw [hs.other hv] at hin ⊢
    rintro rfl
    exact hs.guid_free ((h.guid_mem _).mpr ⟨v, hin, rfl⟩)
  have hself : (r'.session s).guid = guid := by
    rw [hs.self]
    rfl
  by_cases hts : t = s
  · by_cases hus : u = s
    · rw [hts, hus]
    · rw [hts, hself] at heq
      exact absurd heq.symm (hfresh hus hu)
  · by_cases hus : u = s
    · rw [hus, hself] at heq
      exact absurd heq (hfresh hts ht)
    · rw [hs.other hts] at ht heq
      rw [hs.other hus] at hu heq
      exact h.guid_inj t u ht hu heq

theorem index_get (h : Logins r) (hout : (r.session s).loggedIn = false) (id : SessionId)
    (t : SessionRef) :
    r'.index.get? id = some t ↔
      (r'.session t).loggedIn = true ∧ (r'.session t).role.isDiscoverable = true ∧
        (r'.session t).id = id := by
  have hindex := hs.index
  have hold : r.index.get? id = some t → t ≠ s := by
    rintro hget rfl
    cases hout.symm.trans ((h.index_get id t).mp hget).1
  have hself : (r'.session s).loggedIn = true ∧
      (r'.session s).role = (r.session s).role ∧ (r'.session s).id = r.nextSessionId := by
    rw [hs.self]
    exact ⟨rfl, rfl, rfl⟩
  by_cases hd : (r.session s).role.isDiscoverable = true
  · rw [if_pos hd] at hindex
    have hnone : r.index.get? r.nextSessionId = none := by
      rw [Registry.get?_eq_none_iff]
      intro hmem
      rw [Registry.insert?_eq_none_iff.mpr hmem] at hindex
      cases hindex
    rw [Registry.get?_of_insert? hindex]
    by_cases hts : t = s
    · subst hts
      rw [hself.1, hself.2.1, hself.2.2]
      by_cases hid : id = r.nextSessionId
      · simp [hid, hd]
      · rw [if_neg hid]
        constructor
        · intro hget
          exact absurd rfl (hold hget)
        · rintro ⟨-, -, heq⟩
          exact absurd heq.symm hid
    · rw [hs.other hts, ← h.index_get]
      by_cases hid : id = r.nextSessionId
      · subst hid
        rw [if_pos rfl, hnone]
        constructor
        · intro hget
          exact absurd (Option.some.inj hget).symm hts
        · intro hget
          cases hget
      · rw [if_neg hid]
  · rw [if_neg hd] at hindex
    rw [hindex]
    by_cases hts : t = s
    · subst hts
      rw [hself.2.1]
      constructor
      · intro hget
        exact absurd rfl (hold hget)
      · rintro ⟨-, hrole, -⟩
        exact absurd hrole hd
    · rw [hs.other hts]
      exact h.index_get id t

theorem id_inj (h : Logins r) (hn : r'.issued.length ≤ 2 ^ 32 - 1000) (t u : SessionRef)
    (ht : (r'.session t).id ≠ 0) (heq : (r'.session t).id = (r'.session u).id) : t = u := by
  have hlen : r'.issued.length = r.issued.length + 1 := by simp [hs.issued]
  have hself : (r'.session s).id = r.nextSessionId := by
    rw [hs.self]
    rfl
  -- Whoever has an id has had it handed out, and the next one has not been handed out.
  have hfresh {v : SessionRef} (hv : v ≠ s) (hne : (r'.session v).id ≠ 0) :
      (r'.session v).id ≠ r.nextSessionId := by
    rw [hs.other hv] at hne ⊢
    intro hid
    have hmem := h.id_mem v (.inr hne)
    rw [hid] at hmem
    exact h.next_not_mem (by omega) hmem
  by_cases hts : t = s
  · by_cases hus : u = s
    · rw [hts, hus]
    · have hu : (r'.session u).id ≠ 0 := heq ▸ ht
      rw [hts, hself] at heq
      exact absurd heq.symm (hfresh hus hu)
  · by_cases hus : u = s
    · rw [hus, hself] at heq
      exact absurd heq (hfresh hts ht)
    · rw [hs.other hts] at ht heq
      rw [hs.other hus] at heq
      exact h.id_inj (by omega) t u ht heq

/-- Whoever is let in is known by a guid and an id that nobody else has. -/
theorem settled (h : Settled r) (hout : (r.session s).loggedIn = false)
    (hrun : (r.session s).running = true) : Settled r' := by
  have hlen : r'.issued.length = r.issued.length + 1 := by simp [hs.issued]
  refine ⟨⟨hs.guid_mem h.logins hout, hs.guid_inj h.logins, hs.index_get h.logins hout,
    h.logins.issued_succ hs.issued, ?_, ?_, hs.id_inj h.logins⟩, ?_⟩
  · rw [hs.nextSessionId, hlen, h.logins.next_eq, sessionIdAt_succ]
  · intro t ht
    rw [hs.issued, List.mem_append]
    by_cases hts : t = s
    · subst hts
      rw [hs.self]
      exact .inr (List.mem_singleton.mpr rfl)
    · rw [hs.other hts] at ht ⊢
      exact .inl (h.logins.id_mem t ht)
  · intro t ht
    by_cases hts : t = s
    · subst hts
      rw [hs.self]
      exact .inl hrun
    · rw [hs.other hts] at ht ⊢
      exact h.present t ht

end Admitted

/-- A login request leaves the logins alone, or it makes an id go by, or it lets the client in. -/
theorem serveLogin_cases (hrun : (r.session s).running = true) (header : Wire.Header)
    (guid : Guid) (privateAddr : Ipv4) :
    SameLogins r ((serveLogin s header guid privateAddr).exec r) ∨
      (Skipped s header r ((serveLogin s header guid privateAddr).exec r) ∧
        r.nextSessionId ∈ r.index.keys) ∨
      ((r.session s).loggedIn = false ∧
        Admitted s header guid privateAddr r ((serveLogin s header guid privateAddr).exec r)) := by
  cases hin : (r.session s).loggedIn with
  | true =>
      rw [exec_serveLogin_of_loggedIn hin]
      exact .inl (.modifySession r s fun _ => rfl)
  | false =>
      by_cases hg : guid ∈ r.guids.keys
      · rw [exec_serveLogin_of_taken hin hg]
        exact .inl ((sameLogins_count ..).trans (.modifySession _ s fun _ => rfl))
      · by_cases hi : (r.session s).role.isDiscoverable = true ∧ r.nextSessionId ∈ r.index.keys
        · exact .inr (.inl ⟨serveLogin_of_idTaken hin hrun hg hi.1 hi.2, hi.2⟩)
        · exact .inr (.inr ⟨rfl, serveLogin_of_free hin hrun hg fun hd hmem => hi ⟨hd, hmem⟩⟩)

/-- A login request keeps the logins in order, and a session that runs keeps running. -/
theorem Settled.serveLogin (h : Settled r) (hrun : (r.session s).running = true) :
    Settled ((serveLogin s header guid privateAddr).exec r) ∧
      (((serveLogin s header guid privateAddr).exec r).session s).running = true := by
  rcases serveLogin_cases hrun header guid privateAddr with
    hsame | ⟨hskipped, -⟩ | ⟨hout, hadmitted⟩
  · exact ⟨h.sameLogins hsame, (hsame.running s).trans hrun⟩
  · exact ⟨hskipped.settled h, (hskipped.congr Session.running (fun _ _ => rfl) s).trans hrun⟩
  · refine ⟨hadmitted.settled h hout hrun, ?_⟩
    rw [hadmitted.self]
    exact hrun

end PeerRelay.Relay
