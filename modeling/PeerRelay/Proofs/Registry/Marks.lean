import PeerRelay.Proofs.Pool.Likeness
import PeerRelay.Proofs.Registry.Sharing

/-!
# Each value is handed out once

Nobody who shares a registry looks at the values in it. So every value may bear a mark that tells
which insertion has brought it, and nothing else changes. As every mark comes into the registry
once at most, none is handed out twice, however often equal values are inserted, and however the
calls that take everything get in each other's way.
-/

namespace PeerRelay.Registry

open Steps

variable {κ ν ω : Type}

/-! ## Other values under the same keys -/

/-- The registry with what `f` makes of its values. -/
def mapValues (f : ω → ν) (r : Registry κ ω) : Registry κ ν where
  entries := r.entries.map fun e => (e.1, f e.2)
  nodup := by
    rw [List.map_map]
    exact r.nodup

def Answer.map (f : ω → ν) : Answer ω → Answer ν
  | inserted accepted => inserted accepted
  | removed value => removed (value.map f)
  | taken values => taken (values.map f)

def Call.map (f : ω → ν) : Call κ ω → Call κ ν
  | insert key value => insert key (f value)
  | remove key => remove key
  | takeAll listing => takeAll listing

theorem Answer.values_map (f : ω → ν) (a : Answer ω) : (a.map f).values = a.values.map f := by
  cases a with
  | inserted accepted => rfl
  | removed value => cases value <;> rfl
  | taken values => rfl

theorem keys_mapValues (f : ω → ν) (r : Registry κ ω) : (r.mapValues f).keys = r.keys :=
  List.map_map

variable [DecidableEq κ] {calls : List (Call κ ν)} {turns : List Nat}

theorem get?_mapValues (f : ω → ν) (r : Registry κ ω) (key : κ) :
    (r.mapValues f).get? key = (r.get? key).map f := by
  ext value
  rw [get?_eq_some_iff, Option.map_eq_some_iff]
  simp only [get?_eq_some_iff, mapValues, List.mem_map, Prod.mk.injEq, Prod.exists]
  constructor
  · rintro ⟨k, w, hmem, rfl, hw⟩
    exact ⟨w, hmem, hw⟩
  · rintro ⟨w, hmem, hw⟩
    exact ⟨key, w, hmem, rfl, hw⟩

theorem erase_mapValues (f : ω → ν) (r : Registry κ ω) (key : κ) :
    (r.mapValues f).erase key = (r.erase key).mapValues f :=
  ext_entries List.filter_map

theorem tryInsert_mapValues (f : ω → ν) (key : κ) (value : ω) (r : Registry κ ω) :
    tryInsert key (f value) (r.mapValues f) =
      ((tryInsert key value r).1, (tryInsert key value r).2.mapValues f) := by
  by_cases hkey : key ∈ r.keys
  · have hkey' : key ∈ (r.mapValues f).keys := (keys_mapValues f r).symm ▸ hkey
    rw [tryInsert, tryInsert, insert?_eq_none_iff.mpr hkey, insert?_eq_none_iff.mpr hkey']
  · have hkey' : key ∉ (r.mapValues f).keys := (keys_mapValues f r).symm ▸ hkey
    rw [tryInsert, tryInsert, insert?, insert?, dif_neg hkey, dif_neg hkey']
    refine Prod.ext rfl (ext_entries ?_)
    simp [mapValues]

/-! ## Nobody looks at the values -/

section

variable (f : ω → ν)

theorem removeStep_mirrors (key : κ) :
    (removeStep key).Mirrors (mapValues f) (Option.map f) (removeStep key) :=
  mirrors_atomic fun r => Prod.ext (get?_mapValues f r key) (erase_mapValues f r key)

theorem removeEach_mirrors (keys : List κ) :
    (removeEach keys).Mirrors (mapValues f) (List.map f) (removeEach keys) := by
  induction keys with
  | nil => exact .done []
  | cons key keys ih =>
      refine mirrors_bind (removeStep_mirrors f key) fun value => mirrors_bind ih fun values => ?_
      have hvalues : (value.map f).toList ++ values.map f = (value.toList ++ values).map f := by
        cases value <;> rfl
      rw [hvalues]
      exact .done _

theorem op_mirrors (call : Call κ ω) :
    call.op.Mirrors (mapValues f) (Answer.map f) (call.map f).op := by
  cases call with
  | insert key value =>
      have hinsert : (insertStep key value).Mirrors (mapValues f) id (insertStep key (f value)) :=
        mirrors_atomic (tryInsert_mapValues f key value)
      exact mirrors_bind hinsert fun accepted => .done (Answer.inserted accepted)
  | remove key =>
      exact mirrors_bind (removeStep_mirrors f key) fun value => .done (Answer.removed value)
  | takeAll listing =>
      have hread : (Steps.read listing.keys).Mirrors (mapValues f) id (Steps.read listing.keys) :=
        mirrors_atomic fun r => Prod.ext (congrArg listing.order (keys_mapValues f r)) rfl
      have htake : (Registry.takeAll listing).Mirrors (mapValues f) (List.map f)
          (Registry.takeAll listing) :=
        mirrors_bind hread (removeEach_mirrors f)
      exact mirrors_bind htake fun values => .done (Answer.taken values)

/-- Calls do the same with other values. -/
theorem shared_mirrors (calls : List (Call κ ω)) (turns : List Nat) :
    (shared calls turns).Mirrors (mapValues f) (Answer.map f)
      (shared (calls.map (Call.map f)) turns) := by
  have hops : List.Forall₂ (Steps.Mirrors (mapValues f) (Answer.map f)) (calls.map Call.op)
      ((calls.map (Call.map f)).map Call.op) := by
    rw [List.map_map, List.forall₂_map_left_iff, List.forall₂_map_right_iff, List.forall₂_same]
    exact fun call _ => op_mirrors f call
  exact (Pool.mirrors_start hops empty).play turns

omit [DecidableEq κ] in
theorem handed_mirrors {p : Steps (Registry κ ω) (Answer ω)} {q : Steps (Registry κ ν) (Answer ν)}
    (h : p.Mirrors (mapValues f) (Answer.map f) q) : (handed p).map f = handed q := by
  have hrun : q.run empty = _ := h.run empty
  rw [handed, handed, hrun, Answer.values_map]

theorem handedOut_map (calls : List (Call κ ω)) (turns : List Nat) :
    (handedOut (shared calls turns)).map f =
      handedOut (shared (calls.map (Call.map f)) turns) := by
  rw [handedOut, handedOut, List.map_flatMap, List.flatMap_def, List.flatMap_def,
    (shared_mirrors f calls turns).map_tasks fun t u => handed_mirrors f]

end

/-! ## Marks -/

/-- The calls, with a mark on each value to be inserted: the place of the insertion among them. -/
def marked (calls : List (Call κ ν)) : List (Call κ (Nat × ν)) :=
  calls.zipIdx.map fun c => c.1.map fun value => (c.2, value)

omit [DecidableEq κ] in
theorem map_marked (calls : List (Call κ ν)) :
    (marked calls).map (Call.map Prod.snd) = calls := by
  have hmap : Call.map Prod.snd ∘ (fun c : Call κ ν × Nat => c.1.map fun value => (c.2, value)) =
      Prod.fst := by
    funext c
    obtain ⟨call, i⟩ := c
    cases call <;> rfl
  rw [marked, List.map_map, hmap, List.zipIdx_map_fst]

omit [DecidableEq κ] in
theorem marks_brought (call : Call κ ν) (i : Nat) (answer : Option (Answer (Nat × ν))) :
    (((call.map fun value => (i, value)).brought answer).map Prod.fst).Sublist [i] := by
  cases call with
  | insert key value =>
      match answer with
      | some (.inserted true) => exact .refl _
      | some (.inserted false) | some (.removed _) | some (.taken _) | none =>
          exact List.nil_sublist _
  | remove key => exact List.nil_sublist _
  | takeAll listing => exact List.nil_sublist _

omit [DecidableEq κ] in
/-- The marks that are brought in are those of different calls. -/
theorem marks_sublist (cs : List (Call κ ν × Nat)) (answers : List (Option (Answer (Nat × ν)))) :
    ((List.zipWith Call.brought (cs.map fun c => c.1.map fun value => (c.2, value))
      answers).flatten.map Prod.fst).Sublist (cs.map Prod.snd) := by
  induction cs generalizing answers with
  | nil => exact .refl _
  | cons c cs ih =>
      cases answers with
      | nil => exact List.nil_sublist _
      | cons answer answers =>
          rw [List.map_cons, List.zipWith_cons_cons, List.flatten_cons, List.map_append]
          exact (marks_brought c.1 c.2 answer).append (ih answers)

theorem nodup_marks (calls : List (Call κ ν)) (turns : List Nat) :
    ((inserted (marked calls) (shared (marked calls) turns)).map Prod.fst).Nodup := by
  refine (marks_sublist calls.zipIdx _).nodup ?_
  rw [List.zipIdx_map_snd]
  exact List.nodup_range'

omit [DecidableEq κ] in
/-- A value was brought in by an insertion that was told so. -/
theorem exists_insert_of_mem {p : Pool (Registry κ ν) (Answer ν)} {value : ν}
    (h : value ∈ inserted calls p) :
    ∃ (i : Nat) (key : κ), calls[i]? = some (.insert key value) ∧
      p.results[i]? = some (some (.inserted true)) := by
  obtain ⟨brought, hbrought, hvalue⟩ := List.mem_flatten.mp h
  obtain ⟨i, hi⟩ := List.mem_iff_getElem?.mp hbrought
  rw [List.getElem?_zipWith] at hi
  split at hi
  · rename_i call answer hcall hanswer
    obtain rfl := Option.some.inj hi
    match call, answer with
    | .insert key w, some (.inserted true) =>
        obtain rfl := List.mem_singleton.mp hvalue
        exact ⟨i, key, hcall, hanswer⟩
    | .insert _ _, none | .insert _ _, some (.inserted false) | .insert _ _, some (.removed _)
    | .insert _ _, some (.taken _) | .remove _, _ | .takeAll _, _ =>
        exact absurd hvalue List.not_mem_nil
  · cases hi

omit [DecidableEq κ] in
theorem insert_of_marked {i k : Nat} {key : κ} {value : ν}
    (h : (marked calls)[k]? = some (.insert key (i, value))) :
    i = k ∧ calls[k]? = some (.insert key value) := by
  rw [marked, List.getElem?_map, List.getElem?_zipIdx, Nat.zero_add] at h
  cases hcall : calls[k]? with
  | none => simp [hcall] at h
  | some call =>
      rw [hcall] at h
      cases call with
      | insert key' value' =>
          cases h
          exact ⟨rfl, rfl⟩
      | remove key' => cases h
      | takeAll listing => cases h

/-- A mark that was handed out is that of an insertion that has brought this value. -/
theorem exists_insert_of_handedOut {i : Nat} {value : ν}
    (h : (i, value) ∈ handedOut (shared (marked calls) turns)) :
    ∃ key, calls[i]? = some (.insert key value) ∧
      (shared calls turns).results[i]? = some (some (.inserted true)) := by
  have hinserted := (inserted_perm_handedOut (marked calls) turns).mem_iff.mpr
    (List.mem_append_left _ h)
  obtain ⟨k, key, hcall, hresult⟩ := exists_insert_of_mem hinserted
  obtain ⟨rfl, hcall⟩ := insert_of_marked hcall
  have hresults := (shared_mirrors Prod.snd (marked calls) turns).results
  rw [map_marked] at hresults
  refine ⟨key, hcall, ?_⟩
  rw [← hresults, List.getElem?_map, hresult]
  rfl

/-! ## What callers get -/

/-- What callers get from a registry that they share. -/
structure HandsOutOnce (calls : List (Call κ ν)) : Prop where
  /-- At every moment the values inserted with success are those that were handed out and those
  that are there. -/
  conserved : ∀ turns, (inserted calls (shared calls turns)).Perm
    (handedOut (shared calls turns) ++ (shared calls turns).state.values)
  /-- A call that is over was handed the values that it has ended with. -/
  returned : ∀ turns (i : Nat) t answer, (shared calls turns).tasks[i]? = some t →
    t.result? = some answer → handed t.rest = answer.values
  /-- With marks on the values everything goes on as without. -/
  unmarked : ∀ turns,
    (shared (marked calls) turns).state.mapValues Prod.snd = (shared calls turns).state ∧
      (shared (marked calls) turns).results.map (Option.map (Answer.map Prod.snd)) =
        (shared calls turns).results ∧
      (handedOut (shared (marked calls) turns)).map Prod.snd = handedOut (shared calls turns)
  /-- What bears a mark was brought by the insertion that the mark tells. -/
  origin : ∀ turns i value, (i, value) ∈ handedOut (shared (marked calls) turns) →
    ∃ key, calls[i]? = some (.insert key value) ∧
      (shared calls turns).results[i]? = some (some (.inserted true))
  /-- No mark is handed out twice, neither to one call nor to two. -/
  once : ∀ turns, ((handedOut (shared (marked calls) turns)).map Prod.fst).Nodup
  /-- An insertion under a key that is taken is refused and changes nothing. -/
  refused : ∀ turns (j : Nat) key value, calls[j]? = some (.insert key value) → j ∉ turns →
    key ∈ (shared calls turns).state.keys →
      (shared calls (turns ++ [j])).results[j]? = some (some (.inserted false)) ∧
        (shared calls (turns ++ [j])).state = (shared calls turns).state
  /-- Any other insertion is accepted. -/
  accepted : ∀ turns (j : Nat) key value, calls[j]? = some (.insert key value) → j ∉ turns →
    key ∉ (shared calls turns).state.keys →
      (shared calls (turns ++ [j])).results[j]? = some (some (.inserted true)) ∧
        (shared calls (turns ++ [j])).state.get? key = some value
  /-- When a call that takes everything is over, each key that is there has arrived since it
  began. -/
  remains : ∀ before during (i : Nat) listing values, calls[i]? = some (.takeAll listing) →
    i ∉ before →
    (shared calls (before ++ during)).results[i]? = some (some (.taken values)) →
      ∀ key ∈ (shared calls (before ++ during)).state.keys, Arrives calls before during key
  /-- So if no insertion has its turn in the meantime, no key is left. -/
  swept : ∀ before during (i : Nat) listing values, calls[i]? = some (.takeAll listing) →
    i ∉ before →
    (shared calls (before ++ during)).results[i]? = some (some (.taken values)) →
      (∀ j ∈ during, ∀ key value, calls[j]? = some (.insert key value) → j ∈ before) →
        (shared calls (before ++ during)).state.keys = []

/-- Whatever is asked of a registry by however many, in whatever order the keys are listed, and
whoever has which turn, it hands out each value once. -/
theorem hands_out_once (calls : List (Call κ ν)) : HandsOutOnce calls where
  conserved := inserted_perm_handedOut calls
  returned _ _ _ _ _ := handed_of_result?
  unmarked turns := by
    have halike := shared_mirrors Prod.snd (marked calls) turns
    have hhanded := handedOut_map Prod.snd (marked calls) turns
    rw [map_marked] at halike hhanded
    exact ⟨halike.state.symm, halike.results, hhanded⟩
  origin _ _ _ := exists_insert_of_handedOut
  once turns := by
    have hperm := (inserted_perm_handedOut (marked calls) turns).map Prod.fst
    rw [List.map_append] at hperm
    exact (List.nodup_append.mp (hperm.nodup (nodup_marks calls turns))).1
  refused turns j key value hcall hbegun hkey := by
    obtain ⟨hresult, hsame, -⟩ := insert_snoc hcall hbegun
    rw [decide_eq_false (not_not_intro hkey)] at hresult
    exact ⟨hresult, hsame hkey⟩
  accepted turns j key value hcall hbegun hkey := by
    obtain ⟨hresult, -, hget⟩ := insert_snoc hcall hbegun
    rw [decide_eq_true hkey] at hresult
    exact ⟨hresult, hget hkey⟩
  remains _ _ _ _ _ hcall hbefore hover _ := arrives_of_taken hcall hbefore hover
  swept before during i listing values hcall hbefore hover hnone := by
    refine List.eq_nil_iff_forall_not_mem.mpr fun key hkey => ?_
    obtain ⟨earlier, j, later, value, rfl, hinsert, hbegun, -⟩ :=
      arrives_of_taken hcall hbefore hover hkey
    have hj := hnone j (List.mem_append_right _ List.mem_cons_self) key value hinsert
    exact hbegun (List.mem_append_left _ hj)

/-- Two calls take everything, and a removal and insertions of equal values under one key get in
between. -/
def raced : List (Call Nat Nat) :=
  [.insert 7 1, .takeAll .oldestFirst, .remove 7, .insert 7 1, .takeAll .oldestFirst,
    .insert 7 2, .insert 7 3]

theorem hands_out_once_raced :
    let begun := [0, 5, 1, 2, 3]
    let rest := [4, 1, 4, 6]
    (shared raced (begun ++ rest)).results = [some (.inserted true), some (.taken [1]),
        some (.removed (some 1)), some (.inserted true), some (.taken []),
        some (.inserted false), some (.inserted true)] ∧
      handedOut (shared (marked raced) (begun ++ rest)) = [(3, 1), (0, 1)] ∧
      ((handedOut (shared (marked raced) (begun ++ rest))).map Prod.fst).Nodup ∧
      7 ∈ (shared raced (begun ++ rest)).state.keys ∧ Arrives raced begun rest 7 := by
  intro begun rest
  have hresults : (shared raced (begun ++ rest)).results = [some (.inserted true),
      some (.taken [1]), some (.removed (some 1)), some (.inserted true), some (.taken []),
      some (.inserted false), some (.inserted true)] := by decide
  have hkey : 7 ∈ (shared raced (begun ++ rest)).state.keys := by decide
  have htaken : (shared raced (begun ++ rest)).results[4]? = some (some (.taken [])) := by
    rw [hresults]
    rfl
  exact ⟨hresults, by decide, (hands_out_once raced).once _, hkey,
    (hands_out_once raced).remains begun rest 4 .oldestFirst [] rfl (by decide) htaken 7 hkey⟩

end PeerRelay.Registry
