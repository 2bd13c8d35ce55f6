import PeerRelay.Proofs.Pool
import PeerRelay.Proofs.Registry

/-!
# Calls on a registry that many share

An insertion or a removal is one step. Taking everything is a look at the keys, which are listed
in some order, and then a removal for each of them, and any other call may get in between. However
many calls are under way and whoever has which turn, what was inserted has been handed out to one
of them or is still there, and a call that takes everything leaves behind only what was inserted
after it had begun.
-/

namespace PeerRelay.Registry

open Steps

variable {κ ν : Type} [DecidableEq κ]

/-! ## Calls -/

/-- Whether a key was free, and the registry in which it has a value now. -/
def tryInsert (key : κ) (value : ν) (r : Registry κ ν) : Bool × Registry κ ν :=
  match r.insert? key value with
  | some s => (true, s)
  | none => (false, r)

/-- Inserts an entry in one step and tells whether it did. -/
def insertStep (key : κ) (value : ν) : Steps (Registry κ ν) Bool := .atomic (tryInsert key value)

/-- What can be asked of a registry that is shared. -/
inductive Call (κ ν : Type) where
  | insert (key : κ) (value : ν)
  | remove (key : κ)
  | takeAll (listing : Listing κ)

/-- What a call ends with. -/
inductive Answer (ν : Type) where
  /-- Whether the value was taken in. -/
  | inserted (accepted : Bool)
  | removed (value : Option ν)
  | taken (values : List ν)
  deriving DecidableEq, Repr

/-- The values that an answer hands out. -/
def Answer.values : Answer ν → List ν
  | inserted _ => []
  | removed value => value.toList
  | taken values => values

def Call.op : Call κ ν → Steps (Registry κ ν) (Answer ν)
  | insert key value => do return .inserted (← insertStep key value)
  | remove key => do return .removed (← removeStep key)
  | takeAll listing => do return .taken (← Registry.takeAll listing)

/-- The value that a call has brought into the registry, by its answer so far. -/
def Call.brought : Call κ ν → Option (Answer ν) → List ν
  | insert _ value, some (.inserted true) => [value]
  | _, _ => []

/-- Calls that begin with an empty registry, after so many turns. Whoever makes several calls makes
them one after another, which is one of the schedules. -/
def shared (calls : List (Call κ ν)) (turns : List Nat) : Pool (Registry κ ν) (Answer ν) :=
  (Pool.start empty (calls.map Call.op)).play turns

/-- The values that an operation has been handed so far: those that it ends with if it finds
nothing any more. -/
def handed (p : Steps (Registry κ ν) (Answer ν)) : List ν := (p.run empty).1.values

/-- The values that were inserted with success. -/
def inserted (calls : List (Call κ ν)) (p : Pool (Registry κ ν) (Answer ν)) : List ν :=
  (List.zipWith Call.brought calls p.results).flatten

/-- The values that were handed out. -/
def handedOut (p : Pool (Registry κ ν) (Answer ν)) : List ν :=
  p.tasks.flatMap fun t => handed t.rest

/-! ## What is left of a call -/

/-- What is left of a call that takes everything: the keys that it has listed and not come to, and
the values that it has found. -/
def taking (keys : List κ) (found : List ν) : Steps (Registry κ ν) (Answer ν) := do
  return .taken (found ++ (← removeEach keys))

theorem taking_nil (found : List ν) : taking ([] : List κ) found = .done (.taken found) :=
  congrArg (fun values => Steps.done (Answer.taken values)) (List.append_nil found)

theorem taking_cons (key : κ) (keys : List κ) (found : List ν) :
    taking (key :: keys) found =
      .step (fun r => r.erase key) fun r => taking keys (found ++ (r.get? key).toList) := by
  have hrest (r : Registry κ ν) :
      ((removeEach keys).bind fun values => .done ((r.get? key).toList ++ values)).bind
          (fun values => .done (Answer.taken (found ++ values))) =
        taking keys (found ++ (r.get? key).toList) := by
    simp only [bind_assoc', pure_bind', taking, List.append_assoc]
    rfl
  exact congrArg (Steps.step fun r => r.erase key) (funext hrest)

theorem op_insert (key : κ) (value : ν) :
    (Call.insert key value).op = .step (fun r => (tryInsert key value r).2)
      fun r => .done (.inserted (tryInsert key value r).1) := rfl

theorem op_remove (key : κ) : (Call.remove key : Call κ ν).op =
    .step (fun r => r.erase key) fun r => .done (.removed (r.get? key)) := rfl

theorem op_takeAll (listing : Listing κ) : (Call.takeAll listing : Call κ ν).op =
    .step (fun r => r) fun r => taking (listing.keys r) [] := rfl

/-- Where nothing is found, nothing is handed out beyond what was found before. -/
theorem handed_taking (keys : List κ) (found : List ν) : handed (taking keys found) = found := by
  induction keys generalizing found with
  | nil => rw [taking_nil]; rfl
  | cons key keys ih =>
      rw [taking_cons]
      have hfound := ih (found ++ ((empty : Registry κ ν).get? key).toList)
      exact hfound.trans (List.append_nil found)

theorem handed_op (call : Call κ ν) : handed call.op = [] := by
  cases call with
  | insert key value => rfl
  | remove key => rfl
  | takeAll listing => exact handed_taking (listing.keys (empty : Registry κ ν)) []

/-! ## One turn -/

variable {call : Call κ ν} {calls : List (Call κ ν)} {t u : Task (Registry κ ν) (Answer ν)}
  {r s : Registry κ ν} {turns : List Nat} {i j : Nat} {key : κ} {value : ν}

omit [DecidableEq κ] in
theorem handed_of_result? {a : Answer ν} (h : t.result? = some a) : handed t.rest = a.values := by
  obtain ⟨past, rest⟩ := t
  cases rest with
  | done b =>
      cases h
      rfl
  | step act rest => cases h

/-- Where a call stands, `begun` telling whether it has had a turn. -/
inductive Stage (call : Call κ ν) (begun : Prop) (t : Task (Registry κ ν) (Answer ν)) : Prop
  | waiting (hbegun : ¬ begun) (hrest : t.rest = call.op)
  | ended (hbegun : begun) {a : Answer ν} (hrest : t.rest = .done a)
  | sweeping (hbegun : begun) {listing : Listing κ} (hcall : call = .takeAll listing)
      {keys : List κ} {found : List ν} (hrest : t.rest = taking keys found)

/-- What a call does to the registry at a turn, and what is left of it. -/
inductive Does (call : Call κ ν) (t : Task (Registry κ ν) (Answer ν)) (r : Registry κ ν)
    (u : Task (Registry κ ν) (Answer ν)) (s : Registry κ ν) : Prop
  | accepted {key : κ} {value : ν} (hcall : call = .insert key value) (hrest : t.rest = call.op)
      (hinsert : r.insert? key value = some s) (hnext : u.rest = .done (.inserted true))
  | refused {key : κ} {value : ν} (hcall : call = .insert key value) (hrest : t.rest = call.op)
      (htaken : key ∈ r.keys) (hs : s = r) (hnext : u.rest = .done (.inserted false))
  | removed {key : κ} (hcall : call = .remove key) (hrest : t.rest = call.op)
      (hs : s = r.erase key) (hnext : u.rest = .done (.removed (r.get? key)))
  | listed {listing : Listing κ} (hcall : call = .takeAll listing) (hrest : t.rest = call.op)
      (hs : s = r) (hnext : u.rest = taking (listing.keys r) [])
  | took {listing : Listing κ} (hcall : call = .takeAll listing) {key : κ} {keys : List κ}
      {found : List ν} (hrest : t.rest = taking (key :: keys) found) (hs : s = r.erase key)
      (hnext : u.rest = taking keys (found ++ (r.get? key).toList))
  | idle {a : Answer ν} (hrest : t.rest = .done a) (hs : s = r) (hnext : u = t)

theorem result?_of_waiting (h : t.rest = call.op) : t.result? = none := by
  cases call with
  | insert key value => exact Task.result?_of_step h
  | remove key => exact Task.result?_of_step h
  | takeAll listing => exact Task.result?_of_step h

theorem does_turn {begun : Prop} (h : Stage call begun t) (r : Registry κ ν) :
    Does call t r (t.turn r).1 (t.turn r).2 := by
  have hidle {a : Answer ν} (hdone : t.rest = .done a) :
      Does call t r (t.turn r).1 (t.turn r).2 := by
    rw [Task.turn_of_done hdone]
    exact .idle hdone rfl rfl
  cases h with
  | waiting _ hrest =>
      cases call with
      | insert key value =>
          obtain ⟨hnext, hs⟩ := Task.turn_of_step (hrest.trans (op_insert key value)) r
          by_cases hkey : key ∈ r.keys
          · rw [tryInsert, insert?_eq_none_iff.mpr hkey] at hnext hs
            exact .refused rfl hrest hkey hs hnext
          · obtain ⟨s, hinsert⟩ := insert?_of_not_mem hkey value
            rw [tryInsert, hinsert] at hnext hs
            exact .accepted rfl hrest (hs ▸ hinsert) hnext
      | remove key =>
          obtain ⟨hnext, hs⟩ := Task.turn_of_step (hrest.trans (op_remove key)) r
          exact .removed rfl hrest hs hnext
      | takeAll listing =>
          obtain ⟨hnext, hs⟩ := Task.turn_of_step (hrest.trans (op_takeAll listing)) r
          exact .listed rfl hrest hs hnext
  | ended _ hrest => exact hidle hrest
  | @sweeping _ _ hcall keys found hrest =>
      cases keys with
      | nil => exact hidle (hrest.trans (taking_nil found))
      | cons key keys =>
          obtain ⟨hnext, hs⟩ := Task.turn_of_step (hrest.trans (taking_cons key keys found)) r
          exact .took hcall hrest hs hnext

theorem Does.stage {begun : Prop} (h : Does call t r u s) (hbegun : begun) :
    Stage call begun u := by
  cases h with
  | accepted _ _ _ hnext => exact .ended hbegun hnext
  | refused _ _ _ _ hnext => exact .ended hbegun hnext
  | removed _ _ _ hnext => exact .ended hbegun hnext
  | listed hcall _ _ hnext => exact .sweeping hbegun hcall hnext
  | took hcall _ _ hnext => exact .sweeping hbegun hcall hnext
  | idle hrest _ hnext => exact .ended hbegun (hnext ▸ hrest)

theorem Stage.not_begun {begun : Prop} (h : Stage (.insert key value) begun t)
    (hrest : t.rest = (Call.insert key value).op) : ¬ begun := by
  cases h with
  | waiting hbegun _ => exact hbegun
  | ended _ hdone => cases hrest.symm.trans hdone
  | sweeping _ hcall _ => cases hcall

theorem Stage.rest_eq_op {begun : Prop} (h : Stage call begun t) (hbegun : ¬ begun) :
    t.rest = call.op := by
  cases h with
  | waiting _ hrest => exact hrest
  | ended hbegun' _ => exact absurd hbegun' hbegun
  | sweeping hbegun' _ _ => exact absurd hbegun' hbegun

/-- A key comes into the registry by an insertion that has its turn. -/
theorem Does.mem_keys (h : Does call t r u s) (hkey : key ∈ s.keys) :
    key ∈ r.keys ∨ key ∉ r.keys ∧ ∃ value, call = .insert key value ∧ t.rest = call.op := by
  by_cases hold : key ∈ r.keys
  · exact .inl hold
  refine .inr ⟨hold, ?_⟩
  cases h with
  | @accepted k value hcall hrest hinsert _ =>
      rw [keys_of_insert? hinsert] at hkey
      rcases List.mem_append.mp hkey with hkey | hkey
      · exact absurd hkey hold
      · obtain rfl := List.mem_singleton.mp hkey
        exact ⟨value, hcall, hrest⟩
  | refused _ _ _ hs _ => exact absurd (hs ▸ hkey) hold
  | removed _ _ hs _ => exact absurd (mem_keys_erase.mp (hs ▸ hkey)).1 hold
  | listed _ _ hs _ => exact absurd (hs ▸ hkey) hold
  | took _ _ hs _ => exact absurd (mem_keys_erase.mp (hs ▸ hkey)).1 hold
  | idle _ hs _ => exact absurd (hs ▸ hkey) hold

/-! ## Turn by turn -/

theorem shared_snoc (calls : List (Call κ ν)) (turns : List Nat) (j : Nat) :
    shared calls (turns ++ [j]) = (shared calls turns).turn j :=
  Pool.play_append ..

@[simp] theorem length_tasks_shared (calls : List (Call κ ν)) (turns : List Nat) :
    (shared calls turns).tasks.length = calls.length := by
  simp [shared, Pool.start]

theorem exists_task (hcall : calls[i]? = some call) (turns : List Nat) :
    ∃ t, (shared calls turns).tasks[i]? = some t := by
  have hi := (List.getElem?_eq_some_iff.mp hcall).1
  rw [← length_tasks_shared calls turns] at hi
  exact ⟨_, List.getElem?_eq_getElem hi⟩

theorem stage_shared (hcall : calls[i]? = some call)
    (ht : (shared calls turns).tasks[i]? = some t) : Stage call (i ∈ turns) t := by
  induction turns using List.reverseRecOn generalizing t with
  | nil =>
      have hfirst : (shared calls []).tasks[i]? = some { rest := call.op } := by
        simp only [shared, Pool.play_nil, Pool.start, List.getElem?_map, hcall, Option.map_some]
      cases hfirst.symm.trans ht
      exact .waiting List.not_mem_nil rfl
  | append_singleton turns j ih =>
      rw [shared_snoc, Pool.getElem?_turn] at ht
      by_cases hji : j = i
      · rw [if_pos hji] at ht
        obtain ⟨u, hu, rfl⟩ := Option.map_eq_some_iff.mp ht
        exact (does_turn (ih hu) _).stage (List.mem_append_right _ (hji ▸ List.mem_singleton_self j))
      · rw [if_neg hji] at ht
        have hmem : (i ∈ turns ++ [j]) = (i ∈ turns) := by simp [Ne.symm hji]
        rw [hmem]
        exact ih ht

/-- A turn that is nobody's changes nothing; any other is a turn of a call. -/
theorem turn_shared (calls : List (Call κ ν)) (turns : List Nat) (j : Nat) :
    (shared calls turns).turn j = shared calls turns ∨
      ∃ call t, calls[j]? = some call ∧ (shared calls turns).tasks[j]? = some t ∧
        Does call t (shared calls turns).state (t.turn (shared calls turns).state).1
          ((shared calls turns).turn j).state := by
  cases hcall : calls[j]? with
  | none =>
      have hnone : (shared calls turns).tasks[j]? = none := by
        rw [List.getElem?_eq_none_iff] at hcall ⊢
        rwa [length_tasks_shared]
      exact .inl (Pool.turn_of_none hnone)
  | some call =>
      obtain ⟨t, ht⟩ := exists_task hcall turns
      refine .inr ⟨call, t, rfl, ht, ?_⟩
      rw [Pool.state_turn ht]
      exact does_turn (stage_shared hcall ht) _

/-! ## What was inserted is handed out or still there -/

omit [DecidableEq κ] in
theorem brought_none (call : Call κ ν) : call.brought none = [] := by
  cases call <;> rfl

theorem values_of_insert? (h : r.insert? key value = some s) : s.values = r.values ++ [value] := by
  have hkey : key ∉ r.keys := fun hkey => by
    rw [insert?_eq_none_iff.mpr hkey] at h
    cases h
  rw [insert?, dif_neg hkey] at h
  cases h
  exact List.map_append

/-- The value of a key and the values of the others are all the values. -/
theorem values_perm_erase (r : Registry κ ν) (key : κ) :
    r.values.Perm ((r.get? key).toList ++ (r.erase key).values) := by
  by_cases hkey : key ∈ r.keys
  · obtain ⟨value, hget⟩ := mem_keys_iff.mp hkey
    obtain ⟨before, after, hentries⟩ := List.append_of_mem (get?_eq_some_iff.mp hget)
    have hothers : ∀ e ∈ before ++ after, e.1 ≠ key := by
      have hnodup := r.nodup
      rw [hentries, List.map_append, List.map_cons, List.nodup_middle, ← List.map_append] at hnodup
      rintro e he rfl
      exact (List.nodup_cons.mp hnodup).1 (List.mem_map.mpr ⟨e, he, rfl⟩)
    have herase : (r.erase key).entries = before ++ after := by
      have hkept := List.filter_eq_self.mpr fun e he => decide_eq_true (hothers e he)
      rw [List.filter_append] at hkept
      simp only [erase]
      rw [hentries, List.filter_append, List.filter_cons_of_neg (by simp), hkept]
    rw [hget, values, values, herase, hentries, List.map_append, List.map_append, List.map_cons]
    exact List.perm_middle
  · rw [get?_eq_none_iff.mpr hkey, erase_of_not_mem hkey]
    exact .refl _

/-- A turn moves values, and neither makes nor loses any. -/
theorem Does.balanced (h : Does call t r u s) :
    (call.brought u.result? ++ (handed t.rest ++ r.values)).Perm
      (call.brought t.result? ++ (handed u.rest ++ s.values)) := by
  cases h with
  | accepted hcall hrest hinsert hnext =>
      rw [Task.result?_of_done hnext, result?_of_waiting hrest, hnext, hrest, handed_op, hcall,
        brought_none, values_of_insert? hinsert]
      exact List.perm_append_comm
  | refused hcall hrest _ hs hnext =>
      rw [Task.result?_of_done hnext, result?_of_waiting hrest, hnext, hrest, handed_op, hcall,
        brought_none, hs]
      exact .refl _
  | removed hcall hrest hs hnext =>
      rw [Task.result?_of_done hnext, result?_of_waiting hrest, hnext, hrest, handed_op, hcall,
        brought_none, hs]
      exact values_perm_erase r _
  | listed hcall hrest hs hnext =>
      rw [hnext, hrest, handed_op, handed_taking, hs, hcall]
      exact .refl _
  | took hcall hrest hs hnext =>
      rw [hnext, hrest, handed_taking, handed_taking, hs, hcall, List.append_assoc]
      exact (values_perm_erase r _).append_left _
  | idle _ hs hnext =>
      rw [hnext, hs]

/-- One part of a list of lists gives way to another. -/
theorem perm_flatten_set {α : Type} {l : List (List α)} {x : List α} (h : l[i]? = some x)
    (y : List α) : ((l.set i y).flatten ++ x).Perm (l.flatten ++ y) := by
  induction l generalizing i with
  | nil => cases h
  | cons z l ih =>
      cases i with
      | zero =>
          obtain rfl : z = x := Option.some.inj h
          calc List.Perm ((y ++ l.flatten) ++ z) (z ++ (y ++ l.flatten)) := List.perm_append_comm
            List.Perm _ (z ++ (l.flatten ++ y)) := List.perm_append_comm.append_left z
            _ = (z ++ l.flatten) ++ y := (List.append_assoc ..).symm
      | succ i =>
          rw [List.set_cons_succ, List.flatten_cons, List.flatten_cons, List.append_assoc,
            List.append_assoc]
          exact (ih h).append_left z

theorem zipWith_set {α β γ : Type} (f : α → β → γ) {as : List α} {a : α} (h : as[i]? = some a)
    (bs : List β) (b : β) :
    List.zipWith f as (bs.set i b) = (List.zipWith f as bs).set i (f a b) := by
  induction as generalizing i bs with
  | nil => cases h
  | cons x as ih =>
      cases bs with
      | nil => rfl
      | cons y bs =>
          cases i with
          | zero =>
              obtain rfl : x = a := Option.some.inj h
              rfl
          | succ i => exact congrArg (f x y :: ·) (ih h bs)

theorem inserted_start (calls : List (Call κ ν)) :
    inserted calls (Pool.start empty (calls.map Call.op)) = [] := by
  induction calls with
  | nil => rfl
  | cons call calls ih =>
      have hwaiting : call.brought (Task.result? { rest := call.op }) = [] := by
        rw [result?_of_waiting rfl, brought_none]
      exact (congrArg (· ++ _) hwaiting).trans ih

theorem handedOut_start (calls : List (Call κ ν)) :
    handedOut (Pool.start empty (calls.map Call.op)) = [] := by
  induction calls with
  | nil => rfl
  | cons call calls ih => exact (congrArg (· ++ _) (handed_op call)).trans ih

section

variable {p : Pool (Registry κ ν) (Answer ν)}

omit [DecidableEq κ] in
/-- What a turn of one call adds to what was inserted is what it has brought. -/
theorem inserted_turn (hcall : calls[j]? = some call) (ht : p.tasks[j]? = some t) :
    (inserted calls (p.turn j) ++ call.brought t.result?).Perm
      (inserted calls p ++ call.brought (t.turn p.state).1.result?) := by
  have hresult : p.results[j]? = some t.result? := by
    rw [Pool.results, List.getElem?_map, ht, Option.map_some]
  have hbrought : (List.zipWith Call.brought calls p.results)[j]? =
      some (call.brought t.result?) := by
    rw [List.getElem?_zipWith, hcall, hresult]
  have hturn : (p.turn j).results = p.results.set j (t.turn p.state).1.result? := by
    rw [Pool.turn_of_getElem? ht, Pool.results, Pool.results, List.map_set]
  rw [inserted, hturn, zipWith_set Call.brought hcall]
  exact perm_flatten_set hbrought _

omit [DecidableEq κ] in
/-- What a turn of one call adds to what was handed out is what it is handed. -/
theorem handedOut_turn (ht : p.tasks[j]? = some t) :
    (handedOut (p.turn j) ++ handed t.rest).Perm
      (handedOut p ++ handed (t.turn p.state).1.rest) := by
  have hhanded : (p.tasks.map fun t => handed t.rest)[j]? = some (handed t.rest) := by
    rw [List.getElem?_map, ht, Option.map_some]
  rw [Pool.turn_of_getElem? ht, handedOut, handedOut, List.flatMap_def, List.flatMap_def,
    List.map_set]
  exact perm_flatten_set hhanded _

end

/-- However many calls overlap, the values that were inserted have been handed out or are still
there. -/
theorem inserted_perm_handedOut (calls : List (Call κ ν)) (turns : List Nat) :
    (inserted calls (shared calls turns)).Perm
      (handedOut (shared calls turns) ++ (shared calls turns).state.values) := by
  induction turns using List.reverseRecOn with
  | nil =>
      rw [shared, Pool.play_nil, inserted_start, handedOut_start]
      exact .refl _
  | append_singleton turns j ih =>
      rw [shared_snoc]
      rcases turn_shared calls turns j with hsame | ⟨call, t, hcall, ht, hdoes⟩
      · rwa [hsame]
      · classical
        rw [List.perm_iff_count] at ih ⊢
        intro value
        have hbefore := ih value
        have hinserted := (inserted_turn hcall ht).count_eq value
        have hhanded := (handedOut_turn ht).count_eq value
        have hmoved := hdoes.balanced.count_eq value
        simp only [List.count_append] at hbefore hinserted hhanded hmoved ⊢
        omega

/-! ## What is left behind when everything was taken -/

/-- In the course of some turns, an insertion of the key has had its turn and found the key free. -/
def Arrives (calls : List (Call κ ν)) (before during : List Nat) (key : κ) : Prop :=
  ∃ earlier j later value, during = earlier ++ j :: later ∧
    calls[j]? = some (.insert key value) ∧ j ∉ before ++ earlier ∧
    key ∉ (shared calls (before ++ earlier)).state.keys

variable {before during : List Nat} {listing : Listing κ}

theorem Arrives.snoc (h : Arrives calls before during key) (j : Nat) :
    Arrives calls before (during ++ [j]) key := by
  obtain ⟨earlier, i, later, value, rfl, hcall, hbegun, hfree⟩ := h
  exact ⟨earlier, i, later ++ [j], value, by simp, hcall, hbegun, hfree⟩

/-- What is there after a turn was there before it, or it arrives. -/
theorem mem_keys_snoc (hkey : key ∈ (shared calls (before ++ during ++ [j])).state.keys) :
    key ∈ (shared calls (before ++ during)).state.keys ∨
      Arrives calls before (during ++ [j]) key := by
  rw [shared_snoc] at hkey
  rcases turn_shared calls (before ++ during) j with hsame | ⟨call, t, hcall, ht, hdoes⟩
  · rw [hsame] at hkey
    exact .inl hkey
  · rcases hdoes.mem_keys hkey with hold | ⟨hfree, value, rfl, hrest⟩
    · exact .inl hold
    · have hbegun := (stage_shared hcall ht).not_begun hrest
      exact .inr ⟨during, j, [], value, rfl, hcall, hbegun, hfree⟩

/-- A call that has listed the keys removes the next of them at a turn. -/
theorem turn_of_taking {keys : List κ} {found : List ν} (hrest : t.rest = taking keys found)
    (r : Registry κ ν) :
    ∃ keys' found', (t.turn r).1.rest = taking keys' found' ∧
      ∀ key ∈ (t.turn r).2.keys, key ∈ r.keys ∧ (key ∈ keys → key ∈ keys') := by
  cases keys with
  | nil =>
      rw [Task.turn_of_done (hrest.trans (taking_nil found))]
      exact ⟨[], found, hrest, fun key hkey => ⟨hkey, id⟩⟩
  | cons first keys =>
      obtain ⟨hnext, hs⟩ := Task.turn_of_step (hrest.trans (taking_cons first keys found)) r
      refine ⟨keys, _, hnext, fun key hkey => ?_⟩
      obtain ⟨hold, hne⟩ := mem_keys_erase.mp (hs ▸ hkey)
      exact ⟨hold, fun hmem => (List.mem_cons.mp hmem).resolve_left hne⟩

/-- A call that takes everything is at it, and every key that is there is one that it has still to
come to, or has arrived since. -/
def Sweeping (calls : List (Call κ ν)) (before during : List Nat)
    (t : Task (Registry κ ν) (Answer ν)) : Prop :=
  ∃ keys found, t.rest = taking keys found ∧
    ∀ key ∈ (shared calls (before ++ during)).state.keys,
      key ∈ keys ∨ Arrives calls before during key

/-- The first turn of the call is the look at the keys. -/
theorem sweeping_of_waiting (ht : (shared calls (before ++ during)).tasks[j]? = some t)
    (hrest : t.rest = (Call.takeAll listing).op) :
    Sweeping calls before (during ++ [j])
      (t.turn (shared calls (before ++ during)).state).1 := by
  obtain ⟨hnext, hs⟩ := Task.turn_of_step (hrest.trans (op_takeAll listing))
    (shared calls (before ++ during)).state
  refine ⟨_, [], hnext, fun key hkey => .inl (listing.mem_keys.mpr ?_)⟩
  rw [← List.append_assoc, shared_snoc, Pool.state_turn ht, hs] at hkey
  exact hkey

theorem Sweeping.own_turn (h : Sweeping calls before during t)
    (ht : (shared calls (before ++ during)).tasks[j]? = some t) :
    Sweeping calls before (during ++ [j])
      (t.turn (shared calls (before ++ during)).state).1 := by
  obtain ⟨keys, found, hrest, hkeys⟩ := h
  obtain ⟨keys', found', hrest', hkeys'⟩ :=
    turn_of_taking hrest (shared calls (before ++ during)).state
  refine ⟨keys', found', hrest', fun key hkey => ?_⟩
  rw [← List.append_assoc, shared_snoc, Pool.state_turn ht] at hkey
  obtain ⟨hold, hnext⟩ := hkeys' key hkey
  exact (hkeys key hold).imp hnext fun h => h.snoc j

theorem Sweeping.other_turn (h : Sweeping calls before during t) (j : Nat) :
    Sweeping calls before (during ++ [j]) t := by
  obtain ⟨keys, found, hrest, hkeys⟩ := h
  refine ⟨keys, found, hrest, fun key hkey => ?_⟩
  rw [← List.append_assoc] at hkey
  rcases mem_keys_snoc hkey with hold | harrives
  · exact (hkeys key hold).imp_right fun h => h.snoc j
  · exact .inr harrives

theorem sweeping_shared (hcall : calls[i]? = some (.takeAll listing)) (hbefore : i ∉ before)
    (hduring : i ∈ during) (ht : (shared calls (before ++ during)).tasks[i]? = some t) :
    Sweeping calls before during t := by
  induction during using List.reverseRecOn generalizing t with
  | nil => exact absurd hduring List.not_mem_nil
  | append_singleton during j ih =>
      rw [← List.append_assoc, shared_snoc] at ht
      by_cases hji : j = i
      · subst hji
        obtain ⟨u, hu⟩ := exists_task hcall (before ++ during)
        rw [Pool.getElem?_turn_self hu] at ht
        obtain rfl := Option.some.inj ht
        by_cases hearlier : j ∈ during
        · exact (ih hearlier hu).own_turn hu
        · have hbegun : j ∉ before ++ during := by simp [hbefore, hearlier]
          exact sweeping_of_waiting hu ((stage_shared hcall hu).rest_eq_op hbegun)
      · rw [Pool.getElem?_turn, if_neg hji] at ht
        have hearlier : i ∈ during := by simpa [Ne.symm hji] using hduring
        exact (ih hearlier ht).other_turn j

/-- What is there when everything was taken has arrived since that began. -/
theorem arrives_of_taken (hcall : calls[i]? = some (.takeAll listing)) (hbefore : i ∉ before)
    {values : List ν}
    (hover : (shared calls (before ++ during)).results[i]? = some (some (.taken values)))
    (hkey : key ∈ (shared calls (before ++ during)).state.keys) :
    Arrives calls before during key := by
  obtain ⟨t, ht⟩ := exists_task hcall (before ++ during)
  rw [Pool.results, List.getElem?_map, ht, Option.map_some] at hover
  have hresult : t.result? = some (.taken values) := Option.some.inj hover
  have hduring : i ∈ during := by
    by_contra hnot
    have hbegun : i ∉ before ++ during := by simp [hbefore, hnot]
    rw [result?_of_waiting ((stage_shared hcall ht).rest_eq_op hbegun)] at hresult
    cases hresult
  obtain ⟨keys, found, hrest, hkeys⟩ := sweeping_shared hcall hbefore hduring ht
  have hdone : keys = [] := by
    cases keys with
    | nil => rfl
    | cons first keys =>
        rw [Task.result?_of_step (hrest.trans (taking_cons first keys found))] at hresult
        cases hresult
  subst hdone
  exact (hkeys key hkey).resolve_left List.not_mem_nil

/-! ## Insertions -/

/-- An insertion finds out at its turn whether the key is free. -/
theorem insert_snoc (hcall : calls[j]? = some (.insert key value)) (hbegun : j ∉ turns) :
    (shared calls (turns ++ [j])).results[j]? =
        some (some (.inserted (decide (key ∉ (shared calls turns).state.keys)))) ∧
      (key ∈ (shared calls turns).state.keys →
        (shared calls (turns ++ [j])).state = (shared calls turns).state) ∧
      (key ∉ (shared calls turns).state.keys →
        (shared calls (turns ++ [j])).state.get? key = some value) := by
  obtain ⟨t, ht⟩ := exists_task hcall turns
  have hwaiting := (stage_shared hcall ht).rest_eq_op hbegun
  obtain ⟨hnext, hs⟩ := Task.turn_of_step (hwaiting.trans (op_insert key value))
    (shared calls turns).state
  have hresult : (shared calls (turns ++ [j])).results[j]? =
      some (some (.inserted (tryInsert key value (shared calls turns).state).1)) := by
    rw [shared_snoc, Pool.results, List.getElem?_map, Pool.getElem?_turn_self ht,
      Option.map_some, Task.result?_of_done hnext]
  have hstate : (shared calls (turns ++ [j])).state =
      (tryInsert key value (shared calls turns).state).2 := by
    rw [shared_snoc, Pool.state_turn ht, hs]
  rw [hresult, hstate]
  by_cases hkey : key ∈ (shared calls turns).state.keys
  · rw [tryInsert, insert?_eq_none_iff.mpr hkey]
    exact ⟨by simp [hkey], fun _ => rfl, fun hfree => absurd hkey hfree⟩
  · obtain ⟨s, hinsert⟩ := insert?_of_not_mem hkey value
    rw [tryInsert, hinsert]
    refine ⟨by simp [hkey], fun htaken => absurd htaken hkey, fun _ => ?_⟩
    rw [get?_of_insert? hinsert, if_pos rfl]

end PeerRelay.Registry
