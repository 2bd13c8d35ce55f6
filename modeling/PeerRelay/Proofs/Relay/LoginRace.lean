import PeerRelay.Proofs.Relay.LoginStages

/-!
# A login that overlaps the end of its session

While a session logs its client in, another thread may end it. The registration is there
before the flag that lets the end of the session undo it, so both sides look twice: the end
clears the flag, and the login looks whether the session still runs after it has set the flag.
Whoever clears the flag undoes the login. A session that was logged in before may have its flag
cleared in between, and then its first login stays for good.
-/

namespace PeerRelay.Relay

open Steps

section

variable {r r' r'' : Relay} {s : SessionRef} {guid : Guid} {notes : Nat → LoginNote} {i : Nat}
  {g : LoginNote}

/-! ## Undoing a login -/

theorem releaseGuid_follows {old : Guid} {a b : LoginStage} {v : LoginRecord}
    (hpass : Passes r s guid i a v b (v.releaseGuid old)) (hg : g.stage = a)
    (hi : i = 0 ∨ i = 1 ∧ a ≠ .waiting ∧ b ≠ .waiting) (hv : v.loggedIn = false) :
    (loginProtocol r s guid).Follows i (fun _ g' => g' = g.moveTo b) (releaseGuid old) g :=
  follows_modify_of_passes hpass hg hi hv (fun _ => .of_sessions rfl rfl rfl) fun _ _ => rfl

theorem unindexSession_follows {id : SessionId} {a b : LoginStage} {v : LoginRecord}
    (hpass : Passes r s guid i a v b (v.unindex id)) (hg : g.stage = a)
    (hi : i = 0 ∨ i = 1 ∧ a ≠ .waiting ∧ b ≠ .waiting) (hv : v.loggedIn = false) :
    (loginProtocol r s guid).Follows i (fun _ g' => g' = g.moveTo b) (unindexSession id) g :=
  follows_modify_of_passes hpass hg hi hv (fun _ => .of_sessions rfl rfl rfl) fun _ _ => rfl

theorem enqueue_follows {op : Directory.Op} {a b : LoginStage} {v : LoginRecord}
    (hpass : Passes r s guid i a v b (v.enqueue op)) (hg : g.stage = a)
    (hi : i = 0 ∨ i = 1 ∧ a ≠ .waiting ∧ b ≠ .waiting) (hv : v.loggedIn = false) :
    (loginProtocol r s guid).Follows i (fun _ g' => g' = g.moveTo b) (enqueue op) g :=
  follows_modify_of_passes hpass hg hi hv (fun _ => .of_sessions rfl rfl rfl) fun _ _ => rfl

/-- What a session that was let in has, but for the flag. -/
def heldRecord (r : Relay) (s : SessionRef) (guid : Guid) : LoginRecord :=
  (r.admittedRecord s guid).setLoggedIn false

/-- The undoing of a login leaves what there was before it. -/
theorem cleared_heldRecord (hlet : LetIn r s guid) :
    Cleared r s guid
      (if (r.session s).role.isDiscoverable then
        (((r.heldRecord s guid).releaseGuid guid).unindex r.nextSessionId).enqueue
          (.del r.nextSessionId)
      else (r.heldRecord s guid).releaseGuid guid) := by
  obtain ⟨guids, hg⟩ := Registry.insert?_of_not_mem hlet.1 ()
  have hguids : (r.admittedRecord s guid).guids.erase guid = r.guids := by
    simp only [admittedRecord, hg, Option.getD_some]
    exact Registry.erase_of_insert? hg
  by_cases hd : (r.session s).role.isDiscoverable = true
  · obtain ⟨index, hindex⟩ := Registry.insert?_of_not_mem (hlet.2 hd) s
    rw [if_pos hd]
    refine ⟨hguids, ?_, ?_, rfl⟩
    · change (r.admittedRecord s guid).index.erase r.nextSessionId = r.index
      simp only [admittedRecord, hd, if_true, hindex, Option.getD_some]
      exact Registry.erase_of_insert? hindex
    · rw [renounced, if_pos ⟨hlet, hd⟩]
      rfl
  · rw [if_neg hd]
    refine ⟨hguids, ?_, ?_, rfl⟩
    · exact if_neg hd
    · rw [renounced, if_neg fun h => hd h.2]
      exact if_neg hd

/-- Of the two who may undo the login the one that clears the flag has the registration to
itself, and the other finds nothing to do. -/
theorem clearLogin_follows (hout : (r.session s).loggedIn = false) (hi : i = 0 ∨ i = 1)
    (hg : g.stage = .watching) :
    (loginProtocol r s guid).Follows i
      (fun was g' => (was = true → LetIn r s guid) ∧
        g' = if was then g.clearing (r.heldRecord s guid) else g.moveTo .over)
      (clearLogin s) g := by
  refine Protocol.follows_atomic fun notes r' hnote hs => ?_
  have hfits := hs.fitsFrom hi
  rw [hnote, hg] at hfits
  have hself := session_modifySession_self hs.lt fun x => { x with loggedIn := false }
  have haside : Aside s r' (r'.modifySession s fun x => { x with loggedIn := false }) :=
    .modifySession r' s (fun _ => rfl) (fun _ => rfl) fun _ => rfl
  have hrecord : (r'.modifySession s fun x => { x with loggedIn := false }).loginRecord s =
      (r'.loginRecord s).setLoggedIn false := by
    simp only [loginRecord, hself]
    rfl
  have hwait (b : LoginStage) (hb : b ≠ .waiting) :
      i = 1 → ((notes i).stage = .waiting ↔ b = .waiting) := by
    intro _
    rw [hnote, hg]
    exact iff_of_false LoginStage.watching_ne_waiting hb
  cases hin : (r'.session s).loggedIn with
  | true =>
      -- The flag is set only while neither has begun to undo the login.
      obtain ⟨hv, hlet, hfits'⟩ :=
        fitsFrom_watching_set (w := (r'.loginRecord s).setLoggedIn false) hout hfits hin rfl
      refine ⟨g.clearing (r.heldRecord s guid), ?_, ?_, fun _ => hlet, rfl⟩
      · simp [loginProtocol, clearsLogin, Move.left, hself, hin, LoginNote.clearing]
      · refine hs.update hi haside (by rw [hnote]; rfl) (by rw [hnote]; rfl)
          (hwait _ (LoginStage.undoing_ne_waiting _)) ?_
        rw [hrecord]
        rw [hv] at hfits' ⊢
        rw [LoginNote.clearing, Nat.add_right_comm]
        exact hfits'
  | false =>
      refine ⟨g.moveTo .over, ?_, ?_, fun h => ?_, rfl⟩
      · simp [loginProtocol, clearsLogin, hin, LoginNote.moveTo]
      · have hsame : (r'.loginRecord s).setLoggedIn false = r'.loginRecord s := by
          simp only [loginRecord, LoginRecord.setLoggedIn, hin]
        refine hs.update hi haside (by rw [hnote]; rfl) (by rw [hnote]; rfl)
          (hwait _ LoginStage.over_ne_waiting) ?_
        rw [hrecord, hsame]
        exact fitsFrom_watching_clear hfits hin
      · cases h

/-- Whoever is going to look whether there is a login to undo leaves none behind. -/
theorem dismiss_follows (hout : (r.session s).loggedIn = false) (hi : i = 0 ∨ i = 1)
    (hg : g.stage = .watching) :
    (loginProtocol r s guid).Follows i
      (fun _ g' => g'.stage = .over ∧ g'.live = g.live ∧ g'.connections = g.connections)
      (dismiss s) g := by
  refine Protocol.follows_bind (clearLogin_follows hout hi hg) ?_
  rintro was _ ⟨hlet, rfl⟩
  cases was with
  | false => exact Protocol.follows_pure ⟨rfl, rfl, rfl⟩
  | true =>
      have hcleared := cleared_heldRecord (hlet rfl)
      have hi' {a b : LoginStage} (ha : a ≠ .waiting) (hb : b ≠ .waiting) :
          i = 0 ∨ i = 1 ∧ a ≠ .waiting ∧ b ≠ .waiting := hi.imp_right fun h => ⟨h, ha, hb⟩
      -- The session is as the login has left it, whoever reads it.
      refine Protocol.follows_bind (follows_read (T := fun x => x.guid = guid ∧
        x.id = r.nextSessionId ∧ x.role = (r.session s).role) fun notes r' hnote hs => ?_) ?_
      · have hpass : Passes r s guid i (.undoing (r.heldRecord s guid)) (r.heldRecord s guid) _ _ :=
          passes_undoing (w := r.heldRecord s guid) i rfl
        have hrecord := record_eq_of_passes hpass hi hs (by rw [hnote]; rfl)
        exact ⟨congrArg LoginRecord.guid hrecord, congrArg LoginRecord.id hrecord, hs.role⟩
      rintro x _ ⟨⟨hguid, hid, hrole⟩, rfl⟩
      rw [hguid, hid, hrole]
      by_cases hd : (r.session s).role.isDiscoverable = true
      · rw [if_pos hd] at hcleared ⊢
        refine Protocol.follows_bind (releaseGuid_follows (passes_undoing i rfl) rfl
          (hi' nofun nofun) rfl) ?_
        rintro _ _ rfl
        refine Protocol.follows_bind (unindexSession_follows (passes_undoing i rfl) rfl
          (hi' nofun nofun) rfl) ?_
        rintro _ _ rfl
        refine (enqueue_follows (passes_undone i hcleared) rfl (hi' nofun nofun) rfl).mono ?_
        rintro _ _ rfl
        exact ⟨rfl, rfl, rfl⟩
      · rw [if_neg hd] at hcleared ⊢
        refine Protocol.follows_bind (releaseGuid_follows (passes_undone i hcleared) rfl
          (hi' nofun nofun) rfl) ?_
        rintro _ _ rfl
        exact Protocol.follows_pure ⟨rfl, rfl, rfl⟩

/-! ## Logging in -/

/-- The record of a session that has taken guid, id, and what else it is let in with, before
it knows of it. -/
def takenRecord (r : Relay) (s : SessionRef) (guid : Guid) : LoginRecord :=
  (r.heldRecord s guid).identify (r.session s).id (r.session s).guid

/-- The record of a session that has taken a guid, when a certain id is the next one. -/
def guidRecord (r : Relay) (s : SessionRef) (guids : GuidSet) (id : SessionId) : LoginRecord :=
  { r.loginRecord s with guids, nextSessionId := id }

theorem takenRecord_eq (hout : (r.session s).loggedIn = false) {guids : GuidSet}
    {index : Registry SessionId SessionRef} (hguids : r.guids.insert? guid () = some guids)
    (hindex : if (r.session s).role.isDiscoverable then
        r.index.insert? r.nextSessionId s = some index
      else index = r.index) :
    { r.guidRecord s guids (r.nextSessionId + 1) with index, directory := r.announced s guid } =
      r.takenRecord s guid := by
  simp only [guidRecord, takenRecord, heldRecord, admittedRecord, LoginRecord.identify,
    LoginRecord.setLoggedIn, loginRecord, hguids, hout, Option.getD_some]
  by_cases hd : (r.session s).role.isDiscoverable = true
  · rw [if_pos hd] at hindex
    rw [if_pos hd, hindex, Option.getD_some]
  · rw [if_neg hd] at hindex
    rw [if_neg hd, hindex]

theorem cleared_of_refused (hout : (r.session s).loggedIn = false) (hlet : ¬ LetIn r s guid)
    (id : SessionId) : Cleared r s guid (r.guidRecord s r.guids id) := by
  refine ⟨rfl, rfl, ?_, hout⟩
  rw [renounced, if_neg fun h => hlet h.1]
  rfl

theorem reserveGuid_follows (hout : (r.session s).loggedIn = false) (hg : g.stage = .waiting) :
    (loginProtocol r s guid).Follows 0
      (fun taken g' => if taken then
          ∃ guids, r.guids.insert? guid () = some guids ∧
            g' = g.moveTo (.taking (r.guidRecord s guids r.nextSessionId))
        else g' = g.moveTo .over)
      (reserveGuid guid) g := by
  by_cases hheld : guid ∈ r.guids.keys
  · have hnone : r.guids.insert? guid () = none := Registry.insert?_eq_none_iff.mpr hheld
    have hcleared := cleared_of_refused hout (fun hlet => hlet.1 hheld) r.nextSessionId
    refine (follows_of_passes (x := false) (passes_refused (fun hlet => hlet.1 hheld) hcleared)
      hg (.inl rfl) hout (fun _ => by split <;> exact .of_sessions rfl rfl rfl)
      fun r' _ hrecord => ?_).mono ?_
    · have hguids : r'.guids = r.guids := congrArg LoginRecord.guids hrecord
      simp only [GuidSet.reserve?, hguids, hnone]
      exact ⟨trivial, hrecord⟩
    · rintro _ _ ⟨rfl, rfl⟩
      rfl
  · obtain ⟨guids, hsome⟩ := Registry.insert?_of_not_mem hheld ()
    refine (follows_of_passes (x := true) (passes_begin (w := r.guidRecord s guids r.nextSessionId)
      hout) hg (.inl rfl) hout (fun _ => by split <;> exact .of_sessions rfl rfl rfl)
      fun r' _ hrecord => ?_).mono ?_
    · have hguids : r'.guids = r.guids := congrArg LoginRecord.guids hrecord
      simp only [GuidSet.reserve?, hguids, hsome]
      exact ⟨trivial, congrArg (fun v => { v with guids := guids }) hrecord⟩
    · rintro _ _ ⟨rfl, rfl⟩
      exact ⟨guids, hsome, rfl⟩

theorem takeSessionId_follows (hout : (r.session s).loggedIn = false) {guids : GuidSet}
    (hg : g.stage = .taking (r.guidRecord s guids r.nextSessionId)) :
    (loginProtocol r s guid).Follows 0
      (fun id g' => id = r.nextSessionId ∧
        g' = g.moveTo (.taking (r.guidRecord s guids (r.nextSessionId + 1))))
      takeSessionId g := by
  refine follows_of_passes (passes_taking hout) hg (.inl rfl) hout
    (fun _ => .of_sessions rfl rfl rfl) fun r' _ hrecord => ?_
  have hnext : r'.nextSessionId = r.nextSessionId := congrArg LoginRecord.nextSessionId hrecord
  refine ⟨hnext, ?_⟩
  rw [← hnext]
  exact congrArg (fun v => { v with nextSessionId := r'.nextSessionId + 1 }) hrecord

theorem indexSession_follows (hout : (r.session s).loggedIn = false) {guids : GuidSet}
    {id : SessionId} (hg : g.stage = .taking (r.guidRecord s guids id)) (new : SessionId) :
    (loginProtocol r s guid).Follows 0
      (fun entered g' => if entered then
          ∃ index, r.index.insert? new s = some index ∧
            g' = g.moveTo (.taking { r.guidRecord s guids id with index })
        else new ∈ r.index.keys ∧ g' = g)
      (indexSession new s) g := by
  by_cases htaken : new ∈ r.index.keys
  · have hnone : r.index.insert? new s = none := Registry.insert?_eq_none_iff.mpr htaken
    refine (follows_of_passes (x := false) (passes_taking (w := r.guidRecord s guids id) hout)
      hg (.inl rfl) hout (fun _ => by split <;> exact .of_sessions rfl rfl rfl)
      fun r' _ hrecord => ?_).mono ?_
    · have hindex : r'.index = r.index := congrArg LoginRecord.index hrecord
      simp only [hindex, hnone]
      exact ⟨trivial, hrecord⟩
    · rintro _ _ ⟨rfl, rfl⟩
      refine ⟨htaken, ?_⟩
      rw [LoginNote.moveTo, ← hg]
  · obtain ⟨index, hsome⟩ := Registry.insert?_of_not_mem htaken s
    refine (follows_of_passes (x := true)
      (passes_taking (w := { r.guidRecord s guids id with index }) hout)
      hg (.inl rfl) hout (fun _ => by split <;> exact .of_sessions rfl rfl rfl)
      fun r' _ hrecord => ?_).mono ?_
    · have hindex : r'.index = r.index := congrArg LoginRecord.index hrecord
      simp only [hindex, hsome]
      exact ⟨trivial, congrArg (fun v => { v with index := index }) hrecord⟩
    · rintro _ _ ⟨rfl, rfl⟩
      exact ⟨index, hsome, rfl⟩

/-- What a login takes it has for itself until it sets the flag. -/
theorem logIn_follows (hout : (r.session s).loggedIn = false) (hg : g.stage = .waiting) :
    (loginProtocol r s guid).Follows 0
      (fun result g' => match result with
        | .ok id => LetIn r s guid ∧ id = r.nextSessionId ∧
            g' = g.moveTo (.taking (r.takenRecord s guid))
        | .error _ => g' = g.moveTo .over)
      (logIn s guid) g := by
  refine Protocol.follows_bind (reserveGuid_follows hout hg) fun taken g' hg' => ?_
  cases taken with
  | false =>
      cases hg'
      refine follows_bind_of_sameLogins (each_modify fun r => sameLogins_count _ r) (.inl rfl)
        fun _ => ?_
      exact Protocol.follows_pure rfl
  | true =>
      obtain ⟨guids, hguids, rfl⟩ := hg'
      have hfree : guid ∉ r.guids.keys := fun hmem => by
        rw [Registry.insert?_eq_none_iff.mpr hmem] at hguids
        cases hguids
      refine Protocol.follows_bind (takeSessionId_follows hout rfl) ?_
      rintro id _ ⟨rfl, rfl⟩
      refine Protocol.follows_bind (follows_read (T := fun x => x.role = (r.session s).role ∧
        x.peer = (r.session s).peer) fun notes r' _ hs => ⟨hs.role, hs.peer⟩) ?_
      rintro x _ ⟨⟨hrole, hpeer⟩, rfl⟩
      rw [hrole, hpeer]
      by_cases hd : (r.session s).role.isDiscoverable = true
      · rw [if_pos hd]
        refine Protocol.follows_bind (indexSession_follows hout rfl r.nextSessionId)
          fun entered g' hg' => ?_
        cases entered with
        | true =>
            obtain ⟨index, hindex, rfl⟩ := hg'
            have hrecord := takenRecord_eq hout hguids (by rw [if_pos hd]; exact hindex)
            have hidFree : r.nextSessionId ∉ r.index.keys := fun hmem => by
              rw [Registry.insert?_eq_none_iff.mpr hmem] at hindex
              cases hindex
            refine Protocol.follows_bind (enqueue_follows
              (v := { r.guidRecord s guids (r.nextSessionId + 1) with index })
              (passes_taking hout) rfl (.inl rfl) hout) ?_
            rintro _ _ rfl
            refine follows_bind_of_sameLogins (each_modify fun r => sameLogins_count _ r) (.inl rfl)
              fun _ => ?_
            refine Protocol.follows_pure ⟨⟨hfree, fun _ => hidFree⟩, rfl, ?_⟩
            rw [← hrecord, announced, if_pos hd]
            rfl
        | false =>
            obtain ⟨htaken, rfl⟩ := hg'
            have hback : guids.erase guid = r.guids := Registry.erase_of_insert? hguids
            have hcleared : Cleared r s guid
                ((r.guidRecord s guids (r.nextSessionId + 1)).releaseGuid guid) := by
              rw [LoginRecord.releaseGuid, guidRecord, hback]
              exact cleared_of_refused hout (fun hlet => hlet.2 hd htaken) _
            refine Protocol.follows_bind (releaseGuid_follows
              (passes_withdrawn (fun hlet => hlet.2 hd htaken) hcleared) rfl (.inl rfl) hout) ?_
            rintro _ _ rfl
            refine follows_bind_of_sameLogins (each_modify fun r => sameLogins_count _ r) (.inl rfl)
              fun _ => ?_
            exact Protocol.follows_pure rfl
      · rw [if_neg hd]
        refine follows_bind_of_sameLogins (each_modify fun r => sameLogins_count _ r) (.inl rfl)
          fun _ => ?_
        refine Protocol.follows_pure ⟨⟨hfree, fun h => absurd h hd⟩, rfl, ?_⟩
        have hindex : if (r.session s).role.isDiscoverable then
            r.index.insert? r.nextSessionId s = some r.index else r.index = r.index := by
          rw [if_neg hd]
        rw [← takenRecord_eq hout hguids hindex, announced, if_neg hd]
        rfl

/-- A login that sees its session run may leave the rest to the end of the session, which has
not begun yet. -/
theorem isRunning_follows (hg : g.stage = .watching) :
    (loginProtocol r s guid).Follows 0
      (fun running g' => g' = if running then g.moveTo .over else g) (isRunning s) g := by
  refine Protocol.follows_atomic fun notes r' hnote hs => ?_
  have hkept : clearsLogin s ⟨r', fun r' => r'⟩ = false := by simp [clearsLogin, Move.left]
  cases hrun : (r'.session s).running with
  | true =>
      -- The end of the session has not begun, so it will see the flag.
      have hfits := hs.fits
      rw [hnote, hg, hs.running.mp hrun] at hfits
      refine ⟨g.moveTo .over, by simp [loginProtocol, hkept, LoginNote.moveTo], ?_,
        by simp [hrun]⟩
      refine hs.update (.inl rfl) (.of_sessions rfl rfl rfl) (by rw [hnote]; rfl)
        (by rw [hnote]; rfl) (fun h => absurd h Nat.zero_ne_one) ?_
      show Fits r s guid .over (notes 1).stage (r'.loginRecord s) (g.undone + (notes 1).undone)
      rw [hs.running.mp hrun]
      exact hfits.over_left
  | false =>
      refine ⟨g, by simp [loginProtocol, hkept], ?_, by simp [hrun]⟩
      subst hnote
      rwa [Function.update_eq_self]

/-- A login leaves nothing to undo behind that the end of the session does not see. -/
theorem serveLogin_follows (hout : (r.session s).loggedIn = false) (header : Wire.Header)
    (privateAddr : Ipv4) (hg : g.stage = .waiting) :
    (loginProtocol r s guid).Follows 0 (fun _ g' => g'.stage = .over)
      (serveLogin s header guid privateAddr) g := by
  refine Protocol.follows_bind (follows_read (T := fun x => x.loggedIn = false)
    fun notes r' hnote hs => ?_) ?_
  · have hrecord := record_eq_of_passes (passes_begin (w := r.loginRecord s) hout) (.inl rfl) hs
      (by rw [hnote, hg])
    exact (congrArg LoginRecord.loggedIn hrecord).trans hout
  rintro x _ ⟨hx, rfl⟩
  rw [hx, if_neg Bool.false_ne_true]
  refine Protocol.follows_bind (logIn_follows hout hg) fun result g' hg' => ?_
  cases result with
  | error refusal =>
      cases hg'
      refine follows_bind_of_sameLogins (each_read _) (.inl rfl) fun _ => ?_
      refine (follows_of_sameLogins (push_sameLogins ..) (.inl rfl) _).mono ?_
      rintro _ _ rfl
      rfl
  | ok id =>
      obtain ⟨hlet, rfl, rfl⟩ := hg'
      refine Protocol.follows_bind (follows_modify_of_passes
        (h := LoginRecord.identify r.nextSessionId guid) (passes_taking rfl) rfl (.inl rfl) rfl
        (fun r' => .modifySession r' s (fun _ => rfl) (fun _ => rfl) fun _ => rfl)
        fun r' hlt => ?_) ?_
      · simp only [loginRecord, session_modifySession_self hlt]
        rfl
      rintro _ _ rfl
      -- From here on the registration is anybody's.
      refine Protocol.follows_bind (follows_modify_of_passes
        (h := LoginRecord.setLoggedIn true) (passes_admitted hlet) rfl (.inl rfl) rfl
        (fun r' => .modifySession r' s (fun _ => rfl) (fun _ => rfl) fun _ => rfl)
        fun r' hlt => ?_) ?_
      · simp only [loginRecord, session_modifySession_self hlt]
        rfl
      rintro _ _ rfl
      refine follows_bind_of_sameLogins (each_modify fun r => sameLogins_disarm _ r) (.inl rfl)
        fun _ => ?_
      refine follows_bind_of_sameLogins (push_sameLogins ..) (.inl rfl) fun _ => ?_
      refine Protocol.follows_bind (isRunning_follows rfl) ?_
      rintro running _ rfl
      cases running with
      | true => exact Protocol.follows_pure rfl
      | false => exact (dismiss_follows hout (.inl rfl) rfl).mono fun _ _ h => h.1

/-! ## The end of the session -/

theorem claimEnd_follows (hg : g.stage = .waiting) :
    (loginProtocol r s guid).Follows 1
      (fun first g' => first = true ∧ g' = g.moveTo .watching) (claimEnd s) g := by
  refine Protocol.follows_atomic fun notes r' hnote hs => ?_
  have hself := session_modifySession_self hs.lt fun x => { x with running := false }
  have hrecord : (r'.modifySession s fun x => { x with running := false }).loginRecord s =
      r'.loginRecord s := by
    simp only [loginRecord, hself]
    rfl
  have hfits := hs.fits
  rw [hnote, hg] at hfits
  refine ⟨g.moveTo .watching, ?_, ?_, hs.running.mpr (by rw [hnote, hg]), rfl⟩
  · simp [loginProtocol, clearsLogin, Move.left, hself, LoginNote.moveTo]
  · have hlive := hs.live
    have hplaces := hs.connections
    rw [hnote] at hlive hplaces
    refine ⟨?_, ?_, ?_, ?_, ?_, ?_, ?_⟩ <;>
      simp only [Function.update_self, Function.update_of_ne Nat.zero_ne_one]
    · rw [hrecord]
      exact hfits.watching_right
    · exact Nat.lt_of_lt_of_eq hs.lt (List.length_modify ..).symm
    · rw [hself]
      exact hs.role
    · rw [hself]
      exact hs.peer
    · rw [hself]
      exact iff_of_false Bool.false_ne_true LoginStage.watching_ne_waiting
    · exact hlive
    · exact hplaces

/-- The place of the connection is the concern of the end of the session alone. -/
theorem follows_place {α : Type} {f : Relay → α × Relay} {x : α}
    (live : Registry SessionRef Unit) (connections : Nat)
    (hf : ∀ r' : Relay, r'.live = g.live → r'.connections = g.connections →
      f r' = (x, { r' with live, connections })) :
    (loginProtocol r s guid).Follows 1 (fun y g' => y = x ∧ g' = { g with live, connections })
      (atomic f) g := by
  refine Protocol.follows_atomic fun notes r' hnote hs => ?_
  have hstep := hf r' (by rw [hs.live, hnote]) (by rw [hs.connections, hnote])
  have hkept : clearsLogin s ⟨r', fun r => (f r).2⟩ = false := by
    have hsame : ({ r' with live, connections } : Relay).session s = r'.session s := rfl
    simp [clearsLogin, Move.left, hstep, hsame]
  refine ⟨{ g with live, connections }, by simp [loginProtocol, hkept], ?_, ?_⟩
  · have hfits := hs.fits
    have hrun := hs.running
    rw [hnote] at hfits hrun
    rw [hstep]
    refine ⟨?_, hs.lt, hs.role, hs.peer, ?_, ?_, ?_⟩ <;>
      simp only [Function.update_self, Function.update_of_ne Nat.zero_ne_one]
    · exact hfits
    · exact hrun
  · rw [hstep]
    exact ⟨rfl, rfl⟩

/-- A session that is live gives its place back, once. -/
theorem detach_follows (hlive : s ∈ g.live.keys) :
    (loginProtocol r s guid).Follows 1
      (fun _ g' =>
        g' = { g with live := g.live.erase s, connections := g.connections - 1 })
      (detach s) g := by
  have hfound : g.live.contains s = true := Registry.contains_iff.mpr hlive
  refine Protocol.follows_bind (follows_place (x := true) (g.live.erase s) g.connections
    fun r' hl hc => ?_) ?_
  · rw [hl, hfound, ← hc]
  rintro _ _ ⟨rfl, rfl⟩
  refine Protocol.follows_bind (follows_place (x := ()) (g.live.erase s) (g.connections - 1)
    fun r' hl hc => ?_) ?_
  · dsimp only at hl hc ⊢
    rw [hc, ← hl]
  rintro _ _ ⟨-, rfl⟩
  exact follows_of_sameLogins (each_modify fun r => sameLogins_count _ r) (.inr rfl) _

theorem stopSession_follows (hout : (r.session s).loggedIn = false) (hg : g.stage = .waiting)
    (hlive : s ∈ g.live.keys) :
    (loginProtocol r s guid).Follows 1
      (fun _ g' => g'.stage = .over ∧ g'.live = g.live.erase s ∧
        g'.connections = g.connections - 1)
      (stopSession s) g := by
  refine Protocol.follows_bind (claimEnd_follows hg) ?_
  rintro _ _ ⟨rfl, rfl⟩
  refine follows_bind_of_sameLogins (each_modify fun r => sameLogins_disarm _ r) (.inr rfl)
    fun _ => ?_
  refine follows_bind_of_sameLogins (takeChannels_sameLogins ..) (.inr rfl) fun src => ?_
  refine follows_bind_of_sameLogins (each_forM discardChannel_sameLogins src) (.inr rfl) fun _ => ?_
  refine follows_bind_of_sameLogins (takeChannels_sameLogins ..) (.inr rfl) fun dst => ?_
  refine follows_bind_of_sameLogins (each_forM stopChannel_sameLogins dst) (.inr rfl) fun _ => ?_
  refine Protocol.follows_bind (dismiss_follows hout (.inr rfl) rfl) ?_
  rintro _ g' ⟨hover, hlive', hplaces'⟩
  refine (detach_follows (by rw [hlive']; exact hlive)).mono ?_
  rintro _ _ rfl
  refine ⟨hover, ?_, ?_⟩
  · exact congrArg (·.erase s) hlive'
  · exact congrArg (· - 1) hplaces'

/-- What an operation has noted of the undoing is what its moves say. -/
theorem undone_eq_countP {first : LoginNote} {past : List (Move Relay)}
    (h : (loginProtocol r s guid).Noted first past g) :
    g.undone = first.undone + past.countP (clearsLogin s) := by
  induction h with
  | nil => rfl
  | snoc _ hnotes ih =>
      rw [hnotes, ih, List.countP_append, List.countP_singleton, Nat.add_assoc]

end

/-! ## Nothing is left behind -/

/-- What a login and the end of its session leave of each other when both are over. -/
structure LeftNothing (r : Relay) (s : SessionRef) (guid : Guid) {α : Type} (p : Pool Relay α) :
    Prop where
  guids : p.state.guids = r.guids
  index : p.state.index = r.index
  loggedIn : (p.state.session s).loggedIn = false
  running : (p.state.session s).running = false
  live : p.state.live = r.live.erase s
  /-- The place of the connection is given back once. -/
  connections : p.state.connections = r.connections - 1
  /-- A session that was let in is added to the directory and deleted once. -/
  directory : p.state.directory = r.renounced s guid
  /-- A login is undone once, by one of the two, if it took anything. -/
  undone : (p.tasks.map fun t => t.past.countP (clearsLogin s)).sum =
    if LetIn r s guid then 1 else 0

/-- However a login and the end of its session take turns, they leave nothing behind, if the
session was not logged in before. -/
theorem login_leaves_nothing {r : Relay} {s : SessionRef} (hrun : (r.session s).running = true)
    (hlive : s ∈ r.live.keys) (hout : (r.session s).loggedIn = false) (header : Wire.Header)
    (guid : Guid) (privateAddr : Ipv4) (turns : List Nat)
    (hidle : ((Pool.start r [serveLogin s header guid privateAddr, stopSession s]).play
      turns).idle) :
    LeftNothing r s guid
      ((Pool.start r [serveLogin s header guid privateAddr, stopSession s]).play turns) := by
  have hstart : Pool.Keeps (loginProtocol r s guid) (fun _ => r.firstLoginNote)
      (fun i _ g => g.stage = .over ∧ (i = 1 →
        g.live = r.live.erase s ∧ g.connections = r.connections - 1))
      (Pool.start r [serveLogin s header guid privateAddr, stopSession s])
      fun _ => r.firstLoginNote := by
    refine Pool.keeps_start ⟨.untouched (.inl rfl), lt_of_running hrun, rfl, rfl,
      iff_of_true hrun rfl, rfl, rfl⟩ fun i op hop => ?_
    match i, hop with
    | 0, rfl =>
        exact (serveLogin_follows hout header privateAddr rfl).mono fun _ _ h => ⟨h, nofun⟩
    | 1, rfl => exact (stopSession_follows hout rfl hlive).mono fun _ _ h => ⟨h.1, fun _ => h.2⟩
  obtain ⟨notes, hkeeps⟩ := hstart.play turns
  have htwo := Pool.length_tasks_play
    (Pool.start r [serveLogin s header guid privateAddr, stopSession s]) turns
  generalize (Pool.start r [serveLogin s header guid privateAddr, stopSession s]).play turns = p
    at hidle hkeeps htwo ⊢
  obtain ⟨t, u, htasks⟩ := List.length_eq_two.mp htwo
  have ht : p.tasks[0]? = some t := by rw [htasks]; rfl
  have hu : p.tasks[1]? = some u := by rw [htasks]; rfl
  obtain ⟨_, ha⟩ := Option.isSome_iff_exists.mp (hidle t (List.mem_of_getElem? ht))
  obtain ⟨_, hb⟩ := Option.isSome_iff_exists.mp (hidle u (List.mem_of_getElem? hu))
  have hlogin := (hkeeps.ended ht ha).1
  obtain ⟨hend, hplace⟩ := hkeeps.ended hu hb
  have hshared := hkeeps.inv
  have hfits := hshared.fits
  rw [hlogin, hend] at hfits
  obtain ⟨hcleared, hundone⟩ := hfits.of_over
  refine ⟨hcleared.guids, hcleared.index, hcleared.loggedIn, ?_,
    hshared.live.trans (hplace rfl).1, hshared.connections.trans (hplace rfl).2,
    hcleared.directory, ?_⟩
  · refine Bool.eq_false_iff.mpr fun h => ?_
    rw [hshared.running.mp h] at hend
    cases hend
  · rw [← hundone, undone_eq_countP (hkeeps.noted 0 t ht), undone_eq_countP (hkeeps.noted 1 u hu),
      htasks]
    simp [firstLoginNote]

/-- A client that is connected and has not logged in. -/
def newcomer : Relay :=
  Relay.after {} [.connect .either ⟨.v4 ⟨192, 0, 2, 1⟩, 4000, 0⟩ ⟨.v4 .unspecified, 8800, 0⟩]

/-- Its session ends after it has taken its guid and its id, and before it is told so. -/
def endMeanwhile : List Nat :=
  List.replicate 5 0 ++ List.replicate 12 1 ++ List.replicate 14 0

theorem login_leaves_nothing_newcomer :
    LetIn newcomer 0 ⟨[65]⟩ ∧
      ((Pool.start newcomer [serveLogin 0 (.fresh .login) ⟨[65]⟩ .unspecified,
        stopSession 0]).play endMeanwhile).idle ∧
      LeftNothing newcomer 0 ⟨[65]⟩
        ((Pool.start newcomer [serveLogin 0 (.fresh .login) ⟨[65]⟩ .unspecified,
          stopSession 0]).play endMeanwhile) := by
  have hrun : (newcomer.session 0).running = true := by decide +kernel
  have hlive : 0 ∈ newcomer.live.keys := by decide +kernel
  have hout : (newcomer.session 0).loggedIn = false := by decide +kernel
  have hidle : ((Pool.start newcomer [serveLogin 0 (.fresh .login) ⟨[65]⟩ .unspecified,
      stopSession 0]).play endMeanwhile).idle := by decide +kernel
  refine ⟨by decide +kernel, hidle, ?_⟩
  exact login_leaves_nothing hrun hlive hout (.fresh .login) ⟨[65]⟩ .unspecified endMeanwhile hidle

/-- The same client, logged in. -/
def member : Relay :=
  newcomer.after [.bytes 0 (Request.encode (.login ⟨[65]⟩ .unspecified))]

/-- A second login gets in between the moment at which the end of the session clears the flag
and the one at which it looks whose login it undoes. -/
def secondLogin : Pool Relay Unit :=
  (Pool.start member [serveLogin 0 (.fresh .login) ⟨[66]⟩ .unspecified, stopSession 0]).play
    (List.replicate 5 1 ++ List.replicate 8 0 ++ List.replicate 8 1 ++ List.replicate 9 0)

/-- The first login of a session is never undone when a second one overlaps its end, and the
second is undone twice. -/
theorem first_login_left_behind :
    (member.session 0).running = true ∧ 0 ∈ member.live.keys ∧ LetIn member 0 ⟨[66]⟩ ∧
      secondLogin.idle ∧ ¬ LeftNothing member 0 ⟨[66]⟩ secondLogin ∧
      secondLogin.state.live.keys = [] ∧ secondLogin.state.guids.keys = [⟨[65]⟩] ∧
      secondLogin.state.index.get? 1000 = some 0 ∧
      (secondLogin.tasks.map fun t => t.past.countP (clearsLogin 0)).sum = 2 ∧
      secondLogin.state.syncDirectory.directory.table.map Record.id = [1000] := by
  have hundone : (secondLogin.tasks.map fun t => t.past.countP (clearsLogin 0)).sum = 2 := by
    decide +kernel
  have hlet : LetIn member 0 ⟨[66]⟩ := by decide +kernel
  refine ⟨by decide +kernel, by decide +kernel, hlet, by decide +kernel, fun hleft => ?_,
    by decide +kernel, by decide +kernel, by decide +kernel, hundone, by decide +kernel⟩
  have hone := hleft.undone
  rw [hundone, if_pos hlet] at hone
  cases hone

end PeerRelay.Relay
