import Mathlib.Data.List.Nodup
import PeerRelay.Proofs.Steps
import PeerRelay.Registry

/-!
# Registries as finite maps

What the operations of a registry do to its size, and what is handed out when
all of it is taken. Entries and look-ups tell the same, because no key stands
in a registry twice.
-/

namespace PeerRelay.Registry

variable {κ ν : Type}

theorem ext_entries {r s : Registry κ ν} (h : r.entries = s.entries) : r = s := by
  cases r
  cases s
  cases h
  rfl

variable [DecidableEq κ] {r s : Registry κ ν} {key k : κ} {value v : ν}

theorem contains_iff : r.contains key = true ↔ key ∈ r.keys := decide_eq_true_iff

theorem mem_keys_iff : key ∈ r.keys ↔ ∃ value, r.get? key = some value := by
  rw [← Option.ne_none_iff_exists', Ne, get?_eq_none_iff, not_not]

theorem get?_eq_some_iff : r.get? key = some value ↔ (key, value) ∈ r.entries := by
  obtain ⟨entries, nodup⟩ := r
  unfold get?
  induction entries with
  | nil => simp
  | cons e rest ih =>
      obtain ⟨hne, hrest⟩ := List.nodup_cons.mp nodup
      obtain ⟨l, w⟩ := e
      by_cases he : key = l
      · subst he
        rw [List.lookup_cons, beq_self_eq_true]
        constructor
        · intro h
          cases h
          exact List.mem_cons_self
        · intro h
          rcases List.mem_cons.mp h with h | h
          · cases h
            rfl
          · exact absurd (List.mem_map_of_mem h) hne
      · have hkey : (key == l) = false := beq_eq_false_iff_ne.mpr he
        rw [List.lookup_cons, hkey]
        constructor
        · intro h
          exact List.mem_cons_of_mem _ ((ih hrest).mp h)
        · intro h
          rcases List.mem_cons.mp h with h | h
          · cases h
            exact absurd rfl he
          · exact (ih hrest).mpr h

theorem mem_values_iff : value ∈ r.values ↔ ∃ key, r.get? key = some value := by
  simp only [values, List.mem_map, get?_eq_some_iff, Prod.exists, exists_eq_right]

theorem insert?_of_not_mem (h : key ∉ r.keys) (value : ν) :
    ∃ s, r.insert? key value = some s :=
  Option.ne_none_iff_exists'.mp (mt insert?_eq_none_iff.mp h)

theorem size_of_insert? (h : r.insert? key value = some s) : s.size = r.size + 1 := by
  have := congrArg List.length (keys_of_insert? h)
  simpa [keys, size] using this

theorem erase_of_not_mem (h : key ∉ r.keys) : r.erase key = r := by
  apply ext_entries
  refine List.filter_eq_self.mpr fun e he => decide_eq_true ?_
  rintro rfl
  exact h (List.mem_map_of_mem he)

omit [DecidableEq κ] in
theorem size_pos_of_mem (h : key ∈ r.keys) : 0 < r.size := by
  have hpos := List.length_pos_of_mem h
  rwa [keys, List.length_map] at hpos

theorem size_erase_of_mem (h : key ∈ r.keys) : (r.erase key).size = r.size - 1 := by
  obtain ⟨entries, nodup⟩ := r
  simp only [size, erase]
  induction entries with
  | nil => simp [keys] at h
  | cons e rest ih =>
      obtain ⟨hne, hrest⟩ := List.nodup_cons.mp nodup
      by_cases he : e.1 = key
      · have hkept : rest.filter (fun e => decide (e.1 ≠ key)) = rest := by
          refine List.filter_eq_self.mpr fun d hd => decide_eq_true ?_
          rintro rfl
          exact hne (he ▸ List.mem_map_of_mem hd)
        rw [List.filter_cons_of_neg (by simp [he]), hkept, List.length_cons,
          Nat.add_sub_cancel]
      · have hmem : key ∈ rest.map Prod.fst := by
          rcases List.mem_cons.mp h with h | h
          · exact absurd h.symm he
          · exact h
        have hpos : 0 < rest.length := by
          rw [← List.length_map Prod.fst]
          exact List.length_pos_of_mem hmem
        have hlen := ih hrest hmem
        rw [List.filter_cons_of_pos (by simp [he]), List.length_cons, List.length_cons, hlen]
        omega

theorem erase_of_insert? (h : r.insert? key value = some s) : s.erase key = r := by
  by_cases hk : key ∈ r.keys
  · rw [insert?_eq_none_iff.mpr hk] at h
    cases h
  · have herase := congrArg entries (erase_of_not_mem hk)
    rw [insert?, dif_neg hk] at h
    cases h
    apply ext_entries
    simp only [erase] at herase ⊢
    rw [List.filter_append, herase]
    simp

/-! ## Listings -/

namespace Listing

variable (listing : Listing κ)

omit [DecidableEq κ] in
theorem keys_perm (r : Registry κ ν) : (listing.keys r).Perm r.keys := listing.perm r.keys

omit [DecidableEq κ] in
theorem nodup_keys (r : Registry κ ν) : (listing.keys r).Nodup :=
  (listing.keys_perm r).nodup_iff.mpr r.nodup

omit [DecidableEq κ] in
theorem mem_keys : key ∈ listing.keys r ↔ key ∈ r.keys := (listing.keys_perm r).mem_iff

/-- A listing shows every value, each as often as it is there. -/
theorem values_perm (r : Registry κ ν) : (listing.values r).Perm r.values := by
  have hvalues : r.keys.filterMap r.get? = r.values := by
    rw [Registry.keys, List.filterMap_map, Registry.values, ← List.filterMap_eq_map]
    refine List.filterMap_congr fun e he => ?_
    exact get?_eq_some_iff.mpr he
  rw [← hvalues]
  exact (listing.keys_perm r).filterMap r.get?

theorem mem_values : value ∈ listing.values r ↔ value ∈ r.values :=
  (listing.values_perm r).mem_iff

end Listing

/-! ## Taking everything -/

/-- Whoever removes different keys alone is handed the values that they have. -/
theorem run_removeEach {keys : List κ} (h : keys.Nodup) (r : Registry κ ν) :
    (removeEach keys).run r = (keys.filterMap r.get?, keys.foldl erase r) := by
  induction keys generalizing r with
  | nil => rfl
  | cons key keys ih =>
      obtain ⟨hkey, hkeys⟩ := List.nodup_cons.mp h
      have hothers : keys.filterMap (r.erase key).get? = keys.filterMap r.get? := by
        refine List.filterMap_congr fun k hk => ?_
        rw [get?_erase, if_neg]
        rintro rfl
        exact hkey hk
      simp only [removeEach, removeStep, Steps.run_bind, Steps.run_atomic, Steps.run_pure,
        ih hkeys, hothers, List.foldl_cons]
      cases hget : r.get? key with
      | none => rw [List.filterMap_cons_none hget, Option.toList_none, List.nil_append]
      | some value =>
          rw [List.filterMap_cons_some hget, Option.toList_some, List.singleton_append]

/-- Nothing is left when all keys were removed. -/
theorem foldl_erase_eq_empty {keys : List κ} (h : ∀ k ∈ r.keys, k ∈ keys) :
    keys.foldl erase r = empty := by
  induction keys generalizing r with
  | nil =>
      have hnone : r.keys = [] :=
        List.eq_nil_iff_forall_not_mem.mpr fun k hk => List.not_mem_nil (h k hk)
      exact ext_entries (List.map_eq_nil_iff.mp hnone)
  | cons key keys ih =>
      refine ih fun k hk => ?_
      obtain ⟨hold, hne⟩ := mem_keys_erase.mp hk
      exact (List.mem_cons.mp (h k hold)).resolve_left hne

/-- Whoever takes everything alone is handed every value and leaves nothing. -/
theorem run_takeAll (listing : Listing κ) (r : Registry κ ν) :
    (takeAll listing).run r = (listing.values r, empty) := by
  simp only [takeAll, Steps.run_bind, Steps.run_read]
  rw [run_removeEach (listing.nodup_keys r),
    foldl_erase_eq_empty fun _ => listing.mem_keys.mpr]
  rfl

end PeerRelay.Registry
