import Mathlib.Algebra.BigOperators.Fin
import PeerRelay.Proofs.Pool
import PeerRelay.Proofs.Relay.LoggingIn

/-!
# Stages of a login and of the end of its session

A login and the end of its session each go through a few stages. The registration of the
session belongs to one of the two at every moment: to the login as long as it takes what it
needs, and then to whoever clears the flag. Which stages may stand beside each other, and what
the registration is then, is said once, and the protocol of the two rests on it.
-/

namespace PeerRelay.Relay

open Steps

/-- What a relay keeps of the login of a session. -/
structure LoginRecord where
  guids : GuidSet
  index : Registry SessionId SessionRef
  directory : Directory Directory.Memory
  nextSessionId : SessionId
  id : SessionId
  guid : Guid
  loggedIn : Bool

namespace LoginRecord

def setLoggedIn (b : Bool) (v : LoginRecord) : LoginRecord := { v with loggedIn := b }

def releaseGuid (guid : Guid) (v : LoginRecord) : LoginRecord :=
  { v with guids := v.guids.erase guid }

def unindex (id : SessionId) (v : LoginRecord) : LoginRecord :=
  { v with index := v.index.erase id }

def enqueue (op : Directory.Op) (v : LoginRecord) : LoginRecord :=
  { v with directory := v.directory.enqueue op }

def identify (id : SessionId) (guid : Guid) (v : LoginRecord) : LoginRecord := { v with id, guid }

end LoginRecord

def loginRecord (r : Relay) (s : SessionRef) : LoginRecord where
  guids := r.guids
  index := r.index
  directory := r.directory
  nextSessionId := r.nextSessionId
  id := (r.session s).id
  guid := (r.session s).guid
  loggedIn := (r.session s).loggedIn

/-- A session is let in if nobody holds the guid, and nobody the next id if it matters. -/
def LetIn (r : Relay) (s : SessionRef) (guid : Guid) : Prop :=
  guid ∉ r.guids.keys ∧
    ((r.session s).role.isDiscoverable = true → r.nextSessionId ∉ r.index.keys)

instance (r : Relay) (s : SessionRef) (guid : Guid) : Decidable (LetIn r s guid) :=
  inferInstanceAs (Decidable (_ ∧ (_ → _)))

/-- The record of a session that was let in. -/
def admittedRecord (r : Relay) (s : SessionRef) (guid : Guid) : LoginRecord where
  guids := (r.guids.insert? guid ()).getD r.guids
  index :=
    if (r.session s).role.isDiscoverable then
      (r.index.insert? r.nextSessionId s).getD r.index
    else r.index
  directory := r.announced s guid
  nextSessionId := r.nextSessionId + 1
  id := r.nextSessionId
  guid := guid
  loggedIn := true

/-- The directory after a login and its undoing, if the session was let in at all. -/
def renounced (r : Relay) (s : SessionRef) (guid : Guid) : Directory Directory.Memory :=
  if LetIn r s guid ∧ (r.session s).role.isDiscoverable = true then
    (r.announced s guid).enqueue (.del r.nextSessionId)
  else r.directory

/-- Nothing of a login is left. -/
structure Cleared (r : Relay) (s : SessionRef) (guid : Guid) (v : LoginRecord) : Prop where
  guids : v.guids = r.guids
  index : v.index = r.index
  directory : v.directory = r.renounced s guid
  loggedIn : v.loggedIn = false

/-- Whether a move marks a session that was logged in as not logged in. -/
def clearsLogin (s : SessionRef) (m : Move Relay) : Bool :=
  (m.found.session s).loggedIn && !(m.left.session s).loggedIn

/-! ## Who may touch the registration -/

/-- How far a login, or the end of a session, has come. While the registration is its own, it
knows what the record is. -/
inductive LoginStage where
  /-- A login that has taken nothing yet; an end that has not begun. -/
  | waiting
  | taking (v : LoginRecord)
  /-- It has cleared the flag. -/
  | undoing (v : LoginRecord)
  /-- It is going to look whether there is a login to undo. -/
  | watching
  | over

theorem LoginStage.watching_ne_waiting : watching ≠ waiting := by simp

theorem LoginStage.undoing_ne_waiting (v : LoginRecord) : undoing v ≠ waiting := by simp

theorem LoginStage.over_ne_waiting : LoginStage.over ≠ .waiting := by simp

/-- The registration is not its own. -/
def LoginStage.handsOff (t : LoginStage) : Prop := t = .waiting ∨ t = .watching ∨ t = .over

/-- How the record goes with the stages of a login and of the end of its session, and how
often the flag was cleared. -/
inductive Fits (r : Relay) (s : SessionRef) (guid : Guid) :
    LoginStage → LoginStage → LoginRecord → Nat → Prop where
  | untouched {t : LoginStage} (ht : t.handsOff) : Fits r s guid .waiting t (r.loginRecord s) 0
  | taking {t : LoginStage} {v : LoginRecord} (ht : t.handsOff) (hv : v.loggedIn = false) :
      Fits r s guid (.taking v) t v 0
  /-- At least one of the two is still going to look. -/
  | standing {l t : LoginStage} (hlet : LetIn r s guid) (hl : l = .watching ∨ l = .over)
      (ht : t.handsOff) (hlook : l = .over → t ≠ .over) :
      Fits r s guid l t (r.admittedRecord s guid) 0
  | undoneByLogin {t : LoginStage} {v : LoginRecord} (hlet : LetIn r s guid) (ht : t.handsOff)
      (hv : v.loggedIn = false) : Fits r s guid (.undoing v) t v 1
  | undoneByEnd {l : LoginStage} {v : LoginRecord} (hlet : LetIn r s guid)
      (hl : l = .watching ∨ l = .over) (hv : v.loggedIn = false) : Fits r s guid l (.undoing v) v 1
  | cleared {l t : LoginStage} {v : LoginRecord} (hl : l = .watching ∨ l = .over)
      (ht : t.handsOff) (hv : Cleared r s guid v) :
      Fits r s guid l t v (if LetIn r s guid then 1 else 0)

namespace Fits

variable {r : Relay} {s : SessionRef} {guid : Guid} {l t : LoginStage} {v w : LoginRecord} {n : Nat}

theorem of_waiting (h : Fits r s guid .waiting t w n) :
    t.handsOff ∧ w = r.loginRecord s ∧ n = 0 := by
  cases h with
  | untouched ht => exact ⟨ht, rfl, rfl⟩
  | standing _ hl | undoneByEnd _ hl | cleared hl => simp at hl

theorem of_taking (h : Fits r s guid (.taking v) t w n) : t.handsOff ∧ w = v ∧ n = 0 := by
  cases h with
  | taking ht => exact ⟨ht, rfl, rfl⟩
  | standing _ hl | undoneByEnd _ hl | cleared hl => simp at hl

theorem of_undoing_left (h : Fits r s guid (.undoing v) t w n) :
    LetIn r s guid ∧ t.handsOff ∧ w = v ∧ n = 1 := by
  cases h with
  | undoneByLogin hlet ht => exact ⟨hlet, ht, rfl, rfl⟩
  | standing _ hl | undoneByEnd _ hl | cleared hl => simp at hl

theorem of_undoing_right (h : Fits r s guid l (.undoing v) w n) :
    LetIn r s guid ∧ (l = .watching ∨ l = .over) ∧ w = v ∧ n = 1 := by
  cases h with
  | undoneByEnd hlet hl => exact ⟨hlet, hl, rfl, rfl⟩
  | untouched ht | taking ht | standing _ _ ht | undoneByLogin _ ht | cleared _ ht =>
      simp [LoginStage.handsOff] at ht

/-- Nobody who is still going to look has to be waited for once both are over. -/
theorem of_over (h : Fits r s guid .over .over w n) :
    Cleared r s guid w ∧ n = if LetIn r s guid then 1 else 0 := by
  cases h with
  | standing _ _ _ hlook => exact absurd rfl (hlook rfl)
  | cleared _ _ hw => exact ⟨hw, rfl⟩

/-- The end of the session may begin at any time. -/
theorem watching_right (h : Fits r s guid l .waiting w n) : Fits r s guid l .watching w n := by
  have hwatch : LoginStage.watching.handsOff := .inr (.inl rfl)
  cases h with
  | untouched => exact .untouched hwatch
  | taking _ hv => exact .taking hwatch hv
  | standing hlet hl => exact .standing hlet hl hwatch fun _ => nofun
  | undoneByLogin hlet _ hv => exact .undoneByLogin hlet hwatch hv
  | cleared hl _ hv => exact .cleared hl hwatch hv

/-- As long as the end of the session has not begun, the login need not look. -/
theorem over_left (h : Fits r s guid .watching .waiting w n) :
    Fits r s guid .over .waiting w n := by
  cases h with
  | standing hlet _ ht => exact .standing hlet (.inr rfl) ht fun _ => nofun
  | cleared _ ht hv => exact .cleared (.inr rfl) ht hv

end Fits

/-- The same, seen from one of the two: its own stage comes first. -/
def FitsFrom (r : Relay) (s : SessionRef) (guid : Guid) :
    Nat → LoginStage → LoginStage → LoginRecord → Nat → Prop
  | 0, l, t => Fits r s guid l t
  | _, t, l => Fits r s guid l t

/-- One of the two may go from a stage to another while the record changes: it knows the record
before, and whatever the other is at, all fits again. -/
def Passes (r : Relay) (s : SessionRef) (guid : Guid) (i : Nat) (a : LoginStage)
    (v : LoginRecord) (b : LoginStage) (w : LoginRecord) : Prop :=
  ∀ o v' n, FitsFrom r s guid i a o v' n → v' = v ∧ FitsFrom r s guid i b o w n

section Passes

variable {r : Relay} {s : SessionRef} {guid : Guid} {v w : LoginRecord}

theorem passes_begin (hw : w.loggedIn = false) :
    Passes r s guid 0 .waiting (r.loginRecord s) (.taking w) w := by
  intro o v' n h
  obtain ⟨ho, rfl, rfl⟩ := Fits.of_waiting h
  exact ⟨rfl, .taking ho hw⟩

theorem passes_taking (hw : w.loggedIn = false) :
    Passes r s guid 0 (.taking v) v (.taking w) w := by
  intro o v' n h
  obtain ⟨ho, rfl, rfl⟩ := Fits.of_taking h
  exact ⟨rfl, .taking ho hw⟩

/-- A login that was refused leaves the registration as it has found it. -/
theorem cleared_over {o : LoginStage} (ho : o.handsOff) (hlet : ¬ LetIn r s guid)
    (hw : Cleared r s guid w) : Fits r s guid .over o w 0 := by
  have hfits := Fits.cleared (l := .over) (.inr rfl) ho hw
  rwa [if_neg hlet] at hfits

theorem passes_refused (hlet : ¬ LetIn r s guid) (hw : Cleared r s guid w) :
    Passes r s guid 0 .waiting (r.loginRecord s) .over w := by
  intro o v' n h
  obtain ⟨ho, rfl, rfl⟩ := Fits.of_waiting h
  exact ⟨rfl, cleared_over ho hlet hw⟩

theorem passes_withdrawn (hlet : ¬ LetIn r s guid) (hw : Cleared r s guid w) :
    Passes r s guid 0 (.taking v) v .over w := by
  intro o v' n h
  obtain ⟨ho, rfl, rfl⟩ := Fits.of_taking h
  exact ⟨rfl, cleared_over ho hlet hw⟩

/-- With the flag the registration goes out of the hands of the login. -/
theorem passes_admitted (hlet : LetIn r s guid) :
    Passes r s guid 0 (.taking v) v .watching (r.admittedRecord s guid) := by
  intro o v' n h
  obtain ⟨ho, rfl, rfl⟩ := Fits.of_taking h
  refine ⟨rfl, .standing hlet (.inl rfl) ho fun hl => ?_⟩
  cases hl

theorem passes_undoing (i : Nat) (hw : w.loggedIn = false) :
    Passes r s guid i (.undoing v) v (.undoing w) w := by
  intro o v' n h
  cases i with
  | zero =>
      obtain ⟨hlet, ho, rfl, rfl⟩ := Fits.of_undoing_left h
      exact ⟨rfl, .undoneByLogin hlet ho hw⟩
  | succ =>
      obtain ⟨hlet, ho, rfl, rfl⟩ := Fits.of_undoing_right h
      exact ⟨rfl, .undoneByEnd hlet ho hw⟩

theorem passes_undone (i : Nat) (hw : Cleared r s guid w) :
    Passes r s guid i (.undoing v) v .over w := by
  intro o v' n h
  cases i with
  | zero =>
      obtain ⟨hlet, ho, rfl, rfl⟩ := Fits.of_undoing_left h
      have hfits := Fits.cleared (l := .over) (.inr rfl) ho hw
      rw [if_pos hlet] at hfits
      exact ⟨rfl, hfits⟩
  | succ =>
      obtain ⟨hlet, ho, rfl, rfl⟩ := Fits.of_undoing_right h
      have hfits := Fits.cleared ho (.inr (.inr rfl) : LoginStage.over.handsOff) hw
      rw [if_pos hlet] at hfits
      exact ⟨rfl, hfits⟩

/-- Whoever looks and finds the flag set has the registration to itself. -/
theorem fitsFrom_watching_set (hout : (r.session s).loggedIn = false) {i : Nat}
    {o : LoginStage} {n : Nat} (h : FitsFrom r s guid i .watching o v n) (hv : v.loggedIn = true)
    (hw : w.loggedIn = false) :
    v = r.admittedRecord s guid ∧ LetIn r s guid ∧
      FitsFrom r s guid i (.undoing w) o w (n + 1) := by
  cases i with
  | zero =>
      cases h with
      | standing hlet _ ho => exact ⟨rfl, hlet, .undoneByLogin hlet ho hw⟩
      | undoneByEnd _ _ hout => cases hv.symm.trans hout
      | cleared _ _ hout => cases hv.symm.trans hout.loggedIn
  | succ =>
      cases h with
      | untouched => cases hv.symm.trans hout
      | taking _ hout => cases hv.symm.trans hout
      | standing hlet ho => exact ⟨rfl, hlet, .undoneByEnd hlet ho hw⟩
      | undoneByLogin _ _ hout => cases hv.symm.trans hout
      | cleared _ _ hout => cases hv.symm.trans hout.loggedIn

/-- Whoever looks and finds the flag not set has nothing more to do. -/
theorem fitsFrom_watching_clear {i : Nat} {o : LoginStage} {n : Nat}
    (h : FitsFrom r s guid i .watching o v n) (hv : v.loggedIn = false) :
    FitsFrom r s guid i .over o v n := by
  cases i with
  | zero =>
      cases h with
      | standing => cases hv
      | undoneByEnd hlet _ hout => exact .undoneByEnd hlet (.inr rfl) hout
      | cleared _ ho hout => exact .cleared (.inr rfl) ho hout
  | succ =>
      have hover : LoginStage.over.handsOff := .inr (.inr rfl)
      cases h with
      | untouched => exact .untouched hover
      | taking _ hout => exact .taking hover hout
      | standing => cases hv
      | undoneByLogin hlet _ hout => exact .undoneByLogin hlet hover hout
      | cleared hl _ hout => exact .cleared hl hover hout

end Passes

/-! ## The protocol -/

/-- What the login and the end of the session have on their hands. The place of the connection
is the concern of the end alone. -/
structure LoginNote where
  stage : LoginStage
  /-- How often it has cleared the flag. -/
  undone : Nat := 0
  live : Registry SessionRef Unit := .empty
  connections : Nat := 0

namespace LoginNote

/-- The same at another stage. -/
def moveTo (g : LoginNote) (b : LoginStage) : LoginNote := { g with stage := b }

/-- Has cleared the flag. -/
def clearing (g : LoginNote) (v : LoginRecord) : LoginNote :=
  { g with stage := .undoing v, undone := g.undone + 1 }

end LoginNote

/-- Neither has done anything yet. -/
def firstLoginNote (r : Relay) : LoginNote where
  stage := .waiting
  live := r.live
  connections := r.connections

/-- What the steps of a login, and those that undo one, leave alone. -/
structure Aside (s : SessionRef) (r r' : Relay) : Prop where
  length : r'.sessions.length = r.sessions.length
  running : (r'.session s).running = (r.session s).running
  role : (r'.session s).role = (r.session s).role
  peer : (r'.session s).peer = (r.session s).peer
  live : r'.live = r.live
  connections : r'.connections = r.connections

/-- How a relay that was in state `r` before is shared by a login, which is the first operation,
and the end of its session, which is the second. -/
structure Shared (r : Relay) (s : SessionRef) (guid : Guid) (notes : Nat → LoginNote)
    (r' : Relay) : Prop where
  fits : Fits r s guid (notes 0).stage (notes 1).stage (r'.loginRecord s)
    ((notes 0).undone + (notes 1).undone)
  lt : s < r'.sessions.length
  role : (r'.session s).role = (r.session s).role
  peer : (r'.session s).peer = (r.session s).peer
  running : (r'.session s).running = true ↔ (notes 1).stage = .waiting
  live : r'.live = (notes 1).live
  connections : r'.connections = (notes 1).connections

def loginProtocol (r : Relay) (s : SessionRef) (guid : Guid) : Protocol Relay LoginNote where
  Inv := Shared r s guid
  Notes g m g' := g'.undone = g.undone + if clearsLogin s m then 1 else 0

section

variable {r r' r'' : Relay} {s : SessionRef} {guid : Guid} {notes : Nat → LoginNote} {i : Nat}
  {g : LoginNote}

theorem Shared.fitsFrom (h : Shared r s guid notes r') (hi : i = 0 ∨ i = 1) :
    FitsFrom r s guid i (notes i).stage (notes (1 - i)).stage (r'.loginRecord s)
      ((notes i).undone + (notes (1 - i)).undone) := by
  rcases hi with rfl | rfl
  · exact h.fits
  · rw [Nat.add_comm]
    exact h.fits

/-- After a step of one of the two the other is where it was. -/
theorem Shared.update (h : Shared r s guid notes r') (hi : i = 0 ∨ i = 1) (ha : Aside s r' r'')
    (hlive : g.live = (notes i).live) (hplaces : g.connections = (notes i).connections)
    (hwait : i = 1 → ((notes i).stage = .waiting ↔ g.stage = .waiting))
    (hfits : FitsFrom r s guid i g.stage (notes (1 - i)).stage (r''.loginRecord s)
      (g.undone + (notes (1 - i)).undone)) :
    Shared r s guid (Function.update notes i g) r'' := by
  have hlt := ha.length ▸ h.lt
  have hrole := ha.role.trans h.role
  have hpeer := ha.peer.trans h.peer
  rcases hi with rfl | rfl
  · refine ⟨?_, hlt, hrole, hpeer, ?_, ?_, ?_⟩ <;>
      simp only [Function.update_self, Function.update_of_ne Nat.one_ne_zero]
    · exact hfits
    · rw [ha.running, h.running]
    · exact ha.live.trans h.live
    · exact ha.connections.trans h.connections
  · refine ⟨?_, hlt, hrole, hpeer, ?_, ?_, ?_⟩ <;>
      simp only [Function.update_self, Function.update_of_ne Nat.zero_ne_one]
    · rw [Nat.add_comm]
      exact hfits
    · rw [ha.running, h.running, hwait rfl]
    · rw [ha.live, h.live, hlive]
    · rw [ha.connections, h.connections, hplaces]

/-- A step by which one of the two goes from a stage to another, on a record that it knows. -/
theorem follows_of_passes {α : Type} {f : Relay → α × Relay} {x : α} {a b : LoginStage}
    {v w : LoginRecord} (hpass : Passes r s guid i a v b w) (hg : g.stage = a)
    (hi : i = 0 ∨ i = 1 ∧ a ≠ .waiting ∧ b ≠ .waiting) (hv : v.loggedIn = false)
    (ha : ∀ r', Aside s r' (f r').2)
    (hf : ∀ r', s < r'.sessions.length → r'.loginRecord s = v →
      (f r').1 = x ∧ (f r').2.loginRecord s = w) :
    (loginProtocol r s guid).Follows i (fun y g' => y = x ∧ g' = g.moveTo b) (atomic f) g := by
  refine Protocol.follows_atomic fun notes r' hnote hs => ?_
  have hi' : i = 0 ∨ i = 1 := hi.imp_right And.left
  have hfits := hs.fitsFrom hi'
  rw [hnote, hg] at hfits
  obtain ⟨rfl, hfits⟩ := hpass _ _ _ hfits
  obtain ⟨hx, hw⟩ := hf r' hs.lt rfl
  have hkept : clearsLogin s ⟨r', fun r => (f r).2⟩ = false := by
    have hout : (r'.session s).loggedIn = false := hv
    simp [clearsLogin, hout]
  refine ⟨g.moveTo b, ?_, ?_, hx, rfl⟩
  · simp [loginProtocol, hkept, LoginNote.moveTo]
  · refine hs.update hi' (ha r') (by rw [hnote]; rfl) (by rw [hnote]; rfl) (fun h1 => ?_) ?_
    · rw [hnote, hg]
      rcases hi with rfl | ⟨-, hna, hnb⟩
      · cases h1
      · exact iff_of_false hna hnb
    · rw [hw]
      exact hfits

/-- The same for a step that changes the relay as it changes the record. -/
theorem follows_modify_of_passes {f : Relay → Relay} {h : LoginRecord → LoginRecord}
    {a b : LoginStage} {v : LoginRecord} (hpass : Passes r s guid i a v b (h v))
    (hg : g.stage = a) (hi : i = 0 ∨ i = 1 ∧ a ≠ .waiting ∧ b ≠ .waiting)
    (hv : v.loggedIn = false) (ha : ∀ r', Aside s r' (f r'))
    (hf : ∀ r' : Relay, s < r'.sessions.length → (f r').loginRecord s = h (r'.loginRecord s)) :
    (loginProtocol r s guid).Follows i (fun _ g' => g' = g.moveTo b) (modify f) g :=
  (follows_of_passes (f := fun r => ((), f r)) hpass hg hi hv ha
    fun r' hlt hrecord => ⟨rfl, hrecord ▸ hf r' hlt⟩).mono fun _ _ hg' => hg'.2

theorem Aside.of_sameLogins (h : SameLogins r r') (s : SessionRef) : Aside s r r' :=
  ⟨h.length, h.running s, h.role s, h.congr Session.peer (fun _ => rfl) s, h.live, h.connections⟩

theorem loginRecord_congr (h : SameLogins r r') (s : SessionRef) :
    r'.loginRecord s = r.loginRecord s := by
  simp only [loginRecord, h.guids, h.index, h.directory, h.nextSessionId, h.id, h.guid,
    h.loggedIn]

/-- Steps that leave the logins alone do not matter. -/
theorem follows_of_sameLogins {α : Type} {p : Op α} (h : p.Each SameLogins)
    (hi : i = 0 ∨ i = 1) (g : LoginNote) :
    (loginProtocol r s guid).Follows i (fun _ g' => g' = g) p g := by
  refine Protocol.follows_of_each h fun notes r' act hnote hs hact => ?_
  have hkept : clearsLogin s ⟨r', act⟩ = false := by
    simp [clearsLogin, Move.left, (hact r').loggedIn]
  refine ⟨by simp [loginProtocol, hkept], ?_⟩
  have hsame := Shared.update hs hi (Aside.of_sameLogins (hact r') s) rfl rfl (fun _ => .rfl)
    (loginRecord_congr (hact r') s ▸ hs.fitsFrom hi)
  rwa [Function.update_eq_self] at hsame

theorem follows_bind_of_sameLogins {α β : Type} {p : Op α} {f : α → Op β}
    {Q : β → LoginNote → Prop} (h : p.Each SameLogins) (hi : i = 0 ∨ i = 1)
    (hf : ∀ a, (loginProtocol r s guid).Follows i Q (f a) g) :
    (loginProtocol r s guid).Follows i Q (p >>= f) g :=
  Protocol.follows_bind_of_kept (follows_of_sameLogins h hi g) hf

/-- What one of the two sees of the shared relay, without changing anything. -/
theorem follows_read {α : Type} {f : Relay → α} {T : α → Prop}
    (hf : ∀ notes r', notes i = g → Shared r s guid notes r' → T (f r')) :
    (loginProtocol r s guid).Follows i (fun x g' => T x ∧ g' = g) (read f) g := by
  refine Protocol.follows_atomic fun notes r' hnote hs => ?_
  have hkept : clearsLogin s ⟨r', fun r' => r'⟩ = false := by simp [clearsLogin, Move.left]
  refine ⟨g, by simp [loginProtocol, hkept], ?_, hf notes r' hnote hs, rfl⟩
  subst hnote
  rwa [Function.update_eq_self]

theorem record_eq_of_passes {a b : LoginStage} {v w : LoginRecord}
    (hpass : Passes r s guid i a v b w) (hi : i = 0 ∨ i = 1) (hs : Shared r s guid notes r')
    (hnote : (notes i).stage = a) : r'.loginRecord s = v := by
  have hfits := hs.fitsFrom hi
  rw [hnote] at hfits
  exact (hpass _ _ _ hfits).1

theorem Aside.of_sessions (hsessions : r'.sessions = r.sessions) (hlive : r'.live = r.live)
    (hplaces : r'.connections = r.connections) : Aside s r r' := by
  have hsession : r'.session s = r.session s := by rw [session, hsessions, session]
  exact ⟨by rw [hsessions], by rw [hsession], by rw [hsession], by rw [hsession], hlive, hplaces⟩

theorem Aside.modifySession (r : Relay) (s : SessionRef) {f : Session → Session}
    (hrun : ∀ x, (f x).running = x.running) (hrole : ∀ x, (f x).role = x.role)
    (hpeer : ∀ x, (f x).peer = x.peer) : Aside s r (r.modifySession s f) :=
  ⟨List.length_modify .., session_modifySession_congr Session.running hrun s,
    session_modifySession_congr Session.role hrole s,
    session_modifySession_congr Session.peer hpeer s, rfl, rfl⟩

theorem session_modifySession_self (h : s < r.sessions.length) (f : Session → Session) :
    (r.modifySession s f).session s = f (r.session s) := by
  rw [session_modifySession, if_pos ⟨rfl, h⟩]

end

end PeerRelay.Relay
