import PeerRelay.Settings.Layers

/-!
# The flags of a command line

A command line is looked at from left to right, at places that depend on what stands there: a
flag takes two of them, since the argument after it is its value whatever that looks like, and
any other argument takes one. The scan finds the flags that stand at these places, in that order,
each with the argument after it.
-/

namespace PeerRelay.Settings

/-- How many places an argument takes, when it is looked at. -/
def stride (arg : String) : Nat := if (Flag.ofText? arg).isSome then 2 else 1

/-- The places of a command line that are looked at. -/
inductive Looked (args : List String) : Nat → Prop where
  | first : Looked args 0
  | next {i : Nat} {arg : String} (h : Looked args i) (harg : args[i]? = some arg) :
      Looked args (i + stride arg)

/-- A flag stands at a place that is looked at. -/
def StandsAt (args : List String) (flag : Flag) (i : Nat) : Prop :=
  Looked args i ∧ args[i]?.bind Flag.ofText? = some flag

/-- A flag stands at a place that is looked at, and at none further to the right. -/
def LastAt (args : List String) (flag : Flag) (i : Nat) : Prop :=
  StandsAt args flag i ∧ ∀ j, StandsAt args flag j → j ≤ i

/-- No flag is the last argument, so that each has a value. -/
def Valued (args : List String) : Prop :=
  ∀ flag i, StandsAt args flag i → args[i + 1]?.isSome = true

theorem LastAt.unique {args : List String} {flag : Flag} {i j : Nat} (hi : LastAt args flag i)
    (hj : LastAt args flag j) : i = j :=
  Nat.le_antisymm (hj.2 i hi.1) (hi.2 j hj.1)

/-! ## One argument after another -/

/-- What is looked at after the first argument. -/
def behind (arg : String) (rest : List String) : List String := rest.drop (stride arg - 1)

theorem getElem?_behind (arg : String) (rest : List String) (i : Nat) :
    (arg :: rest)[i + stride arg]? = (behind arg rest)[i]? := by
  rw [behind, List.getElem?_drop, stride]
  split
  · rw [show i + 2 = (2 - 1 + i) + 1 by omega, List.getElem?_cons_succ]
  · rw [Nat.sub_self, Nat.zero_add, List.getElem?_cons_succ]

theorem looked_cons {arg : String} {rest : List String} {j : Nat} :
    Looked (arg :: rest) j ↔ j = 0 ∨ ∃ i, j = i + stride arg ∧ Looked (behind arg rest) i := by
  constructor
  · intro h
    induction h with
    | first => exact .inl rfl
    | next h harg ih =>
        right
        rcases ih with rfl | ⟨i, rfl, hi⟩
        · cases harg
          exact ⟨0, rfl, .first⟩
        · rw [getElem?_behind] at harg
          exact ⟨_, Nat.add_right_comm .., hi.next harg⟩
  · rintro (rfl | ⟨i, rfl, hi⟩)
    · exact .first
    · induction hi with
      | first => exact .next .first rfl
      | next h harg ih =>
          rw [Nat.add_right_comm]
          exact ih.next (by rw [getElem?_behind, harg])

theorem standsAt_cons {arg : String} {rest : List String} {flag : Flag} {j : Nat} :
    StandsAt (arg :: rest) flag j ↔ j = 0 ∧ Flag.ofText? arg = some flag ∨
      ∃ i, j = i + stride arg ∧ StandsAt (behind arg rest) flag i := by
  rw [StandsAt, looked_cons]
  constructor
  · rintro ⟨rfl | ⟨i, rfl, hi⟩, hflag⟩
    · exact .inl ⟨rfl, hflag⟩
    · rw [getElem?_behind] at hflag
      exact .inr ⟨i, rfl, hi, hflag⟩
  · rintro (⟨rfl, hflag⟩ | ⟨i, rfl, hi, hflag⟩)
    · exact ⟨.inl rfl, hflag⟩
    · refine ⟨.inr ⟨i, rfl, hi⟩, ?_⟩
      rw [getElem?_behind]
      exact hflag

theorem scan_cons (arg : String) (rest : List String) :
    scan (arg :: rest) = ((Flag.ofText? arg).map fun flag => ⟨flag, arg, rest.head?⟩).toList ++
      scan (behind arg rest) := by
  rw [scan, behind, stride]
  cases hflag : Flag.ofText? arg with
  | none => rfl
  | some flag =>
      cases rest with
      | nil => rfl
      | cons value rest => rfl

/-- A command line is taken apart argument by argument. -/
theorem behind_induction {P : List String → Prop} (nil : P [])
    (cons : ∀ arg rest, P (behind arg rest) → P (arg :: rest)) (args : List String) : P args := by
  induction h : args.length using Nat.strongRecOn generalizing args with
  | ind n ih =>
      cases args with
      | nil => exact nil
      | cons arg rest =>
          refine cons arg rest (ih _ ?_ _ rfl)
          rw [← h, behind, List.length_drop, List.length_cons]
          omega

/-! ## The flags that stand there -/

theorem not_standsAt_nil {flag : Flag} {i : Nat} : ¬ StandsAt [] flag i := by
  rintro ⟨-, hflag⟩
  cases hflag

/-- The flags that are found are those that stand at the places, with the argument after each. -/
theorem forall_scan_iff (P : Flag → Option String → Prop) (args : List String) :
    (∀ given ∈ scan args, P given.flag given.value) ↔
      ∀ flag i, StandsAt args flag i → P flag args[i + 1]? := by
  induction args using behind_induction with
  | nil => exact ⟨fun _ _ _ h => (not_standsAt_nil h).elim, fun _ _ h => by cases h⟩
  | cons arg rest ih =>
      rw [scan_cons]
      constructor
      · intro h flag j hj
        rcases standsAt_cons.mp hj with ⟨rfl, hflag⟩ | ⟨i, rfl, hi⟩
        · rw [hflag] at h
          have hfirst := h ⟨flag, arg, rest.head?⟩ (by simp)
          rwa [List.head?_eq_getElem?] at hfirst
        · rw [Nat.add_right_comm, getElem?_behind]
          exact ih.mp (fun given hgiven => h given (List.mem_append_right _ hgiven)) flag i hi
      · intro h given hgiven
        rcases List.mem_append.mp hgiven with hgiven | hgiven
        · obtain ⟨flag, hflag, rfl⟩ := Option.map_eq_some_iff.mp (Option.mem_toList.mp hgiven)
          have hfirst := h flag 0 (standsAt_cons.mpr (.inl ⟨rfl, hflag⟩))
          rwa [List.head?_eq_getElem?]
        · refine ih.mpr (fun flag i hi => ?_) given hgiven
          rw [← getElem?_behind, ← Nat.add_right_comm]
          exact h flag _ (standsAt_cons.mpr (.inr ⟨i, rfl, hi⟩))

theorem forall_scan_isSome_iff {args : List String} :
    (∀ given ∈ scan args, given.value.isSome = true) ↔ Valued args :=
  forall_scan_iff (fun _ value => value.isSome = true) args

/-- The same for the flags of one kind. -/
theorem forall_scan_flag_iff (P : Option String → Prop) {args : List String} {flag : Flag} :
    (∀ given ∈ scan args, given.flag = flag → P given.value) ↔
      ∀ i, StandsAt args flag i → P args[i + 1]? := by
  rw [forall_scan_iff fun f value => f = flag → P value]
  constructor
  · intro h i hi
    exact h flag i hi rfl
  · rintro h _ i hi rfl
    exact h i hi

/-- A flag that is not found stands nowhere. -/
theorem getLast?_scan_eq_none {args : List String} {flag : Flag} :
    ((scan args).filter (·.flag = flag)).getLast? = none ↔ ∀ i, ¬ StandsAt args flag i := by
  rw [List.getLast?_eq_none_iff, List.filter_eq_nil_iff]
  simp only [decide_eq_true_eq]
  exact forall_scan_flag_iff fun _ => False

/-- The last of a flag that is found is the one that stands furthest to the right. -/
theorem lastAt_of_getLast?_scan {args : List String} {flag : Flag} {given : Given}
    (h : ((scan args).filter (·.flag = flag)).getLast? = some given) :
    ∃ i, LastAt args flag i ∧ args[i + 1]? = given.value := by
  induction args using behind_induction with
  | nil => cases h
  | cons arg rest ih =>
      rw [scan_cons, List.filter_append, List.getLast?_append] at h
      cases hlast : ((scan (behind arg rest)).filter (·.flag = flag)).getLast? with
      | some last =>
          rw [hlast, Option.some_or] at h
          obtain ⟨i, hi, hvalue⟩ := ih (hlast.trans h)
          refine ⟨i + stride arg, ⟨standsAt_cons.mpr (.inr ⟨i, rfl, hi.1⟩), fun j hj => ?_⟩, ?_⟩
          · rcases standsAt_cons.mp hj with ⟨rfl, -⟩ | ⟨k, rfl, hk⟩
            · exact Nat.zero_le _
            · exact Nat.add_le_add_right (hi.2 k hk) _
          · rw [Nat.add_right_comm, getElem?_behind, hvalue]
      | none =>
          have hnone := getLast?_scan_eq_none.mp hlast
          rw [hlast, Option.none_or] at h
          obtain ⟨hmem, hgiven⟩ := List.mem_filter.mp (List.mem_of_getLast? h)
          obtain ⟨f, hf, rfl⟩ := Option.map_eq_some_iff.mp (Option.mem_toList.mp hmem)
          obtain rfl : f = flag := of_decide_eq_true hgiven
          refine ⟨0, ⟨standsAt_cons.mpr (.inl ⟨rfl, hf⟩), fun j hj => ?_⟩,
            List.head?_eq_getElem?.symm⟩
          rcases standsAt_cons.mp hj with ⟨rfl, -⟩ | ⟨k, rfl, hk⟩
          · exact Nat.le_refl _
          · exact (hnone k hk).elim

theorem StandsAt.exists_lastAt {args : List String} {flag : Flag} {i : Nat}
    (h : StandsAt args flag i) : ∃ j, LastAt args flag j := by
  cases hlast : ((scan args).filter (·.flag = flag)).getLast? with
  | none => exact (getLast?_scan_eq_none.mp hlast i h).elim
  | some given =>
      obtain ⟨j, hj, -⟩ := lastAt_of_getLast?_scan hlast
      exact ⟨j, hj⟩

end PeerRelay.Settings
