import PeerRelay.Http
import PeerRelay.Proofs.Relay.Closing

/-!
# Who may administer a relay

A request under `/admin` that does not carry the token is answered without a look at the
relay, so it changes nothing and its answer tells nothing. With the token, a session or a
channel can be closed by its id.
-/

namespace PeerRelay.Http

open Steps
open Relay (Op)

variable {router : Router} {token : Option String} {t : String} {q : Request}
  {resource : Resource}

/-! ## The token -/

/-- A request asks for something under `/admin`. -/
def Request.UnderAdmin (router : Router) (q : Request) : Prop :=
  ∃ rest, router.segments q.path = "" :: "admin" :: rest

/-- The first authorization header of a request is the scheme and right after it the token,
which is not empty. -/
def Request.Bears (token : Option String) (q : Request) : Prop :=
  ∃ t, token = some t ∧ t ≠ "" ∧ q.authorization.head? = some (scheme ++ Text.Utf8.encode t)

/-- A text has only the characters from the blank to the tilde. -/
def Printable (t : String) : Prop := ∀ c ∈ t.toList, ' ' ≤ c ∧ c ≤ '~'

theorem encode_ne_nil (h : t ≠ "") : Text.Utf8.encode t ≠ [] := by
  intro hnil
  have hall := List.flatMap_eq_nil_iff.mp hnil
  have hchars : t.toList = [] := by
    refine List.eq_nil_iff_forall_not_mem.mpr fun c hc => ?_
    exact String.utf8EncodeChar_ne_nil (hall c hc)
  exact h (String.toList_eq_nil_iff.mp hchars)

/-- A printable character is one byte, its own number. -/
theorem utf8EncodeChar_of_printable {c : Char} (h : ' ' ≤ c ∧ c ≤ '~') :
    ∃ b : UInt8, String.utf8EncodeChar c = [b] ∧ 0x20 ≤ b ∧ b < 0x7F := by
  obtain ⟨hlo, hhi⟩ := h
  rw [Char.le_def, UInt32.le_iff_toNat_le] at hlo hhi
  have hlo' : 32 ≤ c.val.toNat := hlo
  have hhi' : c.val.toNat ≤ 126 := hhi
  have hsize : c.val.toNat < UInt8.size := Nat.lt_of_le_of_lt hhi' (by decide)
  refine ⟨UInt8.ofNat c.val.toNat, ?_, ?_, ?_⟩
  · rw [String.utf8EncodeChar, if_pos (by omega)]
  · rw [UInt8.le_iff_toNat_le, UInt8.toNat_ofNat_of_lt' hsize]
    exact hlo'
  · rw [UInt8.lt_iff_toNat_lt, UInt8.toNat_ofNat_of_lt' hsize]
    exact Nat.lt_succ_of_le hhi'

theorem isText_encode (h : Printable t) : isText (Text.Utf8.encode t) = true := by
  refine List.all_eq_true.mpr fun b hb => ?_
  obtain ⟨c, hc, hb⟩ := List.mem_flatMap.mp hb
  obtain ⟨b', hencode, hlo, hhi⟩ := utf8EncodeChar_of_printable (h c hc)
  rw [hencode, List.mem_singleton] at hb
  subst hb
  simp [hlo, hhi]

theorem tokenOf_append (bytes : Bytes) :
    tokenOf (scheme ++ bytes) = if isText bytes then bytes else [] := by
  have hscheme : isText scheme = true := by decide +kernel
  have htext : isText (scheme ++ bytes) = isText bytes := by
    rw [isText, List.all_append, ← isText, ← isText, hscheme, Bool.true_and]
  have hstarts : scheme.isPrefixOf (scheme ++ bytes) = true :=
    List.isPrefixOf_iff_prefix.mpr (List.prefix_append ..)
  rw [tokenOf, htext, hstarts, Bool.and_true, List.drop_left]

/-- What is read as a token stands right after the scheme. -/
theorem eq_append_of_tokenOf {value : Bytes} (h : tokenOf value ≠ []) :
    value = scheme ++ tokenOf value := by
  unfold tokenOf at h ⊢
  split at h
  · rename_i hvalue
    obtain ⟨rest, hrest⟩ := List.isPrefixOf_iff_prefix.mp (Bool.and_eq_true_iff.mp hvalue).2
    rw [if_pos hvalue, ← hrest, List.drop_left]
  · exact absurd rfl h

/-- A request carries the token if its first header is exactly the scheme and the token and
can be read as text. -/
theorem isAuthorized_iff : isAuthorized t q = true ↔
    t ≠ "" ∧ isText (Text.Utf8.encode t) = true ∧
      q.authorization.head? = some (scheme ++ Text.Utf8.encode t) := by
  rw [isAuthorized]
  constructor
  · intro h
    cases hhead : q.authorization.head? with
    | none => simp [hhead] at h
    | some value =>
        simp only [hhead, Option.map_some, Option.getD_some, Bool.and_eq_true, beq_iff_eq,
          Bool.not_eq_true', List.isEmpty_eq_false_iff] at h
        obtain ⟨hne, htoken⟩ := h
        have hvalue := eq_append_of_tokenOf hne
        rw [htoken] at hne hvalue
        rw [hvalue, tokenOf_append] at htoken
        refine ⟨?_, ?_, by rw [hvalue]⟩
        · rintro rfl
          exact hne rfl
        · refine by_contra fun htext => ?_
          rw [if_neg htext] at htoken
          exact hne htoken.symm
  · rintro ⟨hne, htext, hhead⟩
    rw [hhead, Option.map_some, Option.getD_some, tokenOf_append, if_pos htext]
    simp [encode_ne_nil hne]

/-! ## What takes no look at the relay -/

/-- An operation that takes no steps: it leaves every relay as it is, and ends in the same way
on all of them. -/
structure Blind {α : Type} (p : Op α) : Prop where
  unmoved : ∀ r, p.exec r = r
  alike : ∀ r r', (p.run r).1 = (p.run r').1
  /-- Nobody can get in between, either. -/
  stepless : ∃ a, p = pure a

theorem blind_pure {α : Type} (a : α) : Blind (pure a : Op α) :=
  ⟨fun _ => rfl, fun _ _ => rfl, a, rfl⟩

theorem Blind.map {α β : Type} {p : Op α} (h : Blind p) (f : α → β) :
    Blind (do return f (← p) : Op β) := by
  obtain ⟨a, rfl⟩ := h.stepless
  rw [pure_bind]
  exact blind_pure _

theorem blind_answerClose (id : Except String UInt32) (close : UInt32 → Op Bool)
    (message : UInt32 → String) : Blind (answerClose false id close message) := by
  cases id with
  | error text => exact blind_pure _
  | ok id => exact blind_pure _

/-- What only those may ask for who have the token. -/
def Resource.IsGuarded : Resource → Prop
  | health | ready | metrics => False
  | sessions | session _ | channels | channel _ | stats => True

/-- Whoever does not carry the token is refused by every part of the administration. -/
theorem blind_answerAdmin (h : resource.IsGuarded) :
    Blind (answerAdmin router false resource) := by
  cases resource with
  | health | ready | metrics => exact h.elim
  | sessions | channels | stats => exact blind_pure _
  | session id | channel id => exact blind_answerClose ..

/-- Nothing under `/admin` is open to everyone, and without a token nothing is there at all. -/
theorem guarded_of_underAdmin {admin : Bool} (h : q.UnderAdmin router)
    (hpath : Resource.ofSegments? admin (router.segments q.path) = some resource) :
    admin = true ∧ resource.IsGuarded := by
  obtain ⟨rest, hrest⟩ := h
  unfold Resource.ofSegments? at hpath
  rw [hrest] at hpath
  split at hpath
  case h_1 | h_2 | h_3 =>
    rename_i hsegments
    simp at hsegments
  case h_4 | h_5 | h_6 =>
    cases hpath
    exact ⟨rfl, trivial⟩
  case h_7 | h_8 =>
    split at hpath
    · cases hpath
    · cases hpath
      exact ⟨rfl, trivial⟩
  case h_9 => cases hpath

/-- Of the token that was set, an empty one counts as none. -/
theorem bears_of_any (h : (token.filter (· != "")).any (fun t => isAuthorized t q) = true) :
    q.Bears token := by
  cases token with
  | none => cases h
  | some t =>
      by_cases ht : t = ""
      · simp [ht] at h
      · have hset : Option.filter (· != "") (some t) = some t := by simp [ht]
        rw [hset] at h
        obtain ⟨hne, -, hheader⟩ := isAuthorized_iff.mp h
        exact ⟨t, rfl, hne, hheader⟩

theorem blind_answer (h : q.UnderAdmin router) (hno : ¬ q.Bears token) :
    Blind (answer token q router) := by
  have hrefused : (token.filter (· != "")).any (fun t => isAuthorized t q) = false :=
    Bool.eq_false_iff.mpr fun hany => hno (bears_of_any hany)
  unfold answer
  simp only [hrefused]
  split
  · exact blind_pure _
  · rename_i resource hpath
    have hanswer : Blind (answerAdmin router false resource) :=
      blind_answerAdmin (guarded_of_underAdmin h hpath).2
    split
    · exact hanswer.map _
    · exact blind_pure _

/-! ## With the token -/

/-- A request asks for something to be closed by its id. -/
def Request.Deletes (router : Router) (q : Request) (kind : String) (id : UInt32) : Prop :=
  q.method = "DELETE" ∧ ∃ segment, router.segments q.path = ["", "admin", kind, segment] ∧
    segment ≠ "" ∧ router.readId segment = .ok id

/-- The router that targets are written for reads no id in an empty segment. -/
theorem deletes_standard {kind segment : String} {id : UInt32} (hmethod : q.method = "DELETE")
    (hsegments : segments q.path = ["", "admin", kind, segment])
    (hid : readId segment = .ok id) : q.Deletes .standard kind id := by
  refine ⟨hmethod, segment, hsegments, ?_, hid⟩
  rintro rfl
  have hempty : (readId "").toOption = none := by decide +kernel
  rw [hid] at hempty
  cases hempty

theorem answer_of_bears (h : q.Bears token) (hprintable : ∀ t ∈ token, Printable t)
    (hpath : Resource.ofSegments? true (router.segments q.path) = some resource)
    (hallows : resource.allows q.method = true) (hhead : q.method ≠ "HEAD") :
    answer token q router = answerAdmin router true resource := by
  obtain ⟨t, rfl, hne, hheader⟩ := h
  have hauthorized : isAuthorized t q = true :=
    isAuthorized_iff.mpr ⟨hne, isText_encode (hprintable t rfl), hheader⟩
  have hset : Option.filter (· != "") (some t) = some t := by
    simp [hne]
  unfold answer
  simp only [hset, Option.isSome_some, hpath, hallows, if_true, Option.any_some, hauthorized,
    if_neg hhead]
  exact bind_pure _

theorem ofSegments?_session {segment : String} (hne : segment ≠ "") :
    Resource.ofSegments? true ["", "admin", "sessions", segment] = some (.session segment) := by
  simp only [Resource.ofSegments?, if_neg hne]

theorem ofSegments?_channel {segment : String} (hne : segment ≠ "") :
    Resource.ofSegments? true ["", "admin", "channels", segment] = some (.channel segment) := by
  simp only [Resource.ofSegments?, if_neg hne]

/-- With the token, a request that something be closed comes to where it is closed. -/
theorem answer_of_deletes {kind : String} {id : UInt32} {resource : String → Resource}
    (hpath : ∀ {segment : String}, segment ≠ "" →
      Resource.ofSegments? true ["", "admin", kind, segment] = some (resource segment))
    (hallows : ∀ segment, (resource segment).allows "DELETE" = true)
    (hbears : q.Bears token) (hprintable : ∀ t ∈ token, Printable t)
    (h : q.Deletes router kind id) :
    ∃ segment, router.readId segment = .ok id ∧
      answer token q router = answerAdmin router true (resource segment) := by
  obtain ⟨hmethod, segment, hsegments, hne, hid⟩ := h
  have hhead : q.method ≠ "HEAD" := by
    rw [hmethod]
    decide
  refine ⟨segment, hid, answer_of_bears hbears hprintable (hsegments ▸ hpath hne) ?_ hhead⟩
  rw [hmethod]
  exact hallows segment

theorem run_answerClose (id : UInt32) (close : UInt32 → Op Bool) (message : UInt32 → String)
    (r : Relay) :
    (answerClose true (.ok id) close message).run r =
      (if ((close id).run r).1 then .ok (.closed (message id)) else .bare 404,
        ((close id).run r).2) := by
  simp only [answerClose, Bool.not_true, Bool.false_eq_true, if_false, run_bind]
  cases ((close id).run r).1 <;> rfl

/-- A request to the administration is heeded only if it carries the token. -/
structure Guarded (router : Router) (token : Option String) : Prop where
  /-- Without the token in its first header, a request under `/admin` leaves every relay as it
  is, and is answered in the same way on all of them. -/
  refused : ∀ q : Request, q.UnderAdmin router → ¬ q.Bears token → Blind (answer token q router)
  /-- That is every request under `/admin` if no token was set, or an empty one. -/
  disabled : token = none ∨ token = some "" →
    ∀ q : Request, q.UnderAdmin router → Blind (answer token q router)
  /-- With the token, a session is closed by its id: the one that is logged in under it. -/
  session : ∀ (q : Request) (id : SessionId), q.Bears token → (∀ t ∈ token, Printable t) →
    q.Deletes router "sessions" id → ∀ (config : Relay.Config) (events : List Relay.Event),
    ∃ found r', Relay.SessionClosing id (Relay.after { config } events) (found, r') ∧
      (answer token q router).run (Relay.after { config } events) =
        (if found then .ok (.closed s!"Session {id} closed") else .bare 404, r')
  /-- With the token, a channel is closed by its id: the one that is listed under it. -/
  channel : ∀ (q : Request) (id : ChannelId), q.Bears token → (∀ t ∈ token, Printable t) →
    q.Deletes router "channels" id → ∀ (config : Relay.Config) (events : List Relay.Event),
    ∃ found r', Relay.ChannelClosing id (Relay.after { config } events) (found, r') ∧
      (answer token q router).run (Relay.after { config } events) =
        (if found then .ok (.closed s!"Channel {id} closed") else .bare 404, r')

/-- Whatever the router makes of a path, and whatever token was set. -/
theorem administration_guarded (router : Router) (token : Option String) :
    Guarded router token where
  refused _ h hno := blind_answer h hno
  disabled hoff q h := by
    refine blind_answer h ?_
    rintro ⟨t, rfl, hne, -⟩
    rcases hoff with hnone | hempty
    · cases hnone
    · exact hne (Option.some.inj hempty)
  session q id hbears hprintable hdeletes config events := by
    obtain ⟨segment, hid, hanswer⟩ :=
      answer_of_deletes ofSegments?_session (fun _ => rfl) hbears hprintable hdeletes
    rw [hanswer, answerAdmin, hid]
    exact ⟨_, _, (Relay.sound_after config events).closeSession
      (Relay.attached_after config events) id, run_answerClose ..⟩
  channel q id hbears hprintable hdeletes config events := by
    obtain ⟨segment, hid, hanswer⟩ :=
      answer_of_deletes ofSegments?_channel (fun _ => rfl) hbears hprintable hdeletes
    rw [hanswer, answerAdmin, hid]
    exact ⟨_, _, (Relay.sound_after config events).closeChannel id, run_answerClose ..⟩

/-- A request that the session with the id 1000 be closed. -/
def closing : Request where
  method := "DELETE"
  path := "/admin/sessions/1000?now"
  authorization := [scheme ++ Text.Utf8.encode "token"]

/-- On a relay where a session has the id, the request closes it; without the header the same
request is refused without a look at the relay. -/
theorem administration_guarded_linked :
    closing.Bears (some "token") ∧ closing.Deletes .standard "sessions" 1000 ∧
      (∃ r', Relay.SessionClosing 1000 (Relay.after {} Relay.linked) (true, r') ∧
        (answer (some "token") closing).run (Relay.after {} Relay.linked) =
          (.ok (.closed "Session 1000 closed"), r')) ∧
      Blind (answer (some "token") { closing with authorization := [] }) := by
  have hbears : closing.Bears (some "token") := ⟨"token", rfl, by decide, rfl⟩
  have hsegments : segments closing.path = ["", "admin", "sessions", "1000"] := by decide +kernel
  have hid : readId "1000" = .ok 1000 := by
    have hread : (readId "1000").toOption = some 1000 := by decide +kernel
    cases hresult : readId "1000" with
    | error text =>
        rw [hresult] at hread
        cases hread
    | ok id =>
        rw [hresult] at hread
        exact congrArg Except.ok (Option.some.inj hread)
  have hdeletes : closing.Deletes .standard "sessions" 1000 :=
    deletes_standard rfl hsegments hid
  have hprintable : ∀ t ∈ some "token", Printable t := by
    rintro t ⟨⟩
    simp [Printable]
  have hguarded := administration_guarded .standard (some "token")
  obtain ⟨found, r', hclosing, hrun⟩ :=
    hguarded.session closing 1000 hbears hprintable hdeletes {} Relay.linked
  have hlogged : ((Relay.after {} Relay.linked).session 0).loggedIn = true ∧
      ((Relay.after {} Relay.linked).session 0).id = 1000 := by decide +kernel
  have hfound : found = true := by
    cases hclosing with
    | missing hnone => exact absurd hlogged.2 (hnone 0 hlogged.1)
    | closed => rfl
  subst hfound
  have hmessage : s!"Session {(1000 : SessionId)} closed" = "Session 1000 closed" := by
    decide +kernel
  rw [if_pos rfl, hmessage] at hrun
  refine ⟨hbears, hdeletes, ⟨r', hclosing, hrun⟩, hguarded.refused _ ⟨_, hsegments⟩ ?_⟩
  rintro ⟨t, -, -, hnone⟩
  cases hnone

end PeerRelay.Http
