import PeerRelay.Guid
import PeerRelay.Steps

/-!
# Registries

A registry holds at most one value for each key. Inserting under a key that is
taken is refused and leaves the value that stands there; removing hands the
value out, so an entry is handed out once. In which order the keys are listed
is up to the registry: whoever goes through one is given a `Listing`.
-/

namespace PeerRelay

/-- Entries with pairwise different keys, oldest first. -/
structure Registry (κ ν : Type) where
  entries : List (κ × ν) := []
  nodup : (entries.map Prod.fst).Nodup := by simp

namespace Registry

variable {κ ν : Type}

/-- The registry with no entry. -/
def empty : Registry κ ν := {}

/-- The keys, oldest first. Where they are shown or gone through, a `Listing` orders them. -/
def keys (r : Registry κ ν) : List κ := r.entries.map Prod.fst

def values (r : Registry κ ν) : List ν := r.entries.map Prod.snd

def size (r : Registry κ ν) : Nat := r.entries.length

def isEmpty (r : Registry κ ν) : Bool := r.entries.isEmpty

@[simp] theorem keys_empty : (empty : Registry κ ν).keys = [] := rfl

/-- An order in which keys are listed. -/
structure Listing (κ : Type) where
  order : List κ → List κ
  perm : ∀ keys, (order keys).Perm keys

namespace Listing

/-- Those that were inserted first come first. -/
def oldestFirst : Listing κ := ⟨id, fun _ => .refl _⟩

/-- The keys of a registry as they are listed. -/
def keys (listing : Listing κ) (r : Registry κ ν) : List κ := listing.order r.keys

end Listing

variable [DecidableEq κ]

/-- The value under a key. -/
def get? (r : Registry κ ν) (key : κ) : Option ν := r.entries.lookup key

def contains (r : Registry κ ν) (key : κ) : Bool := decide (key ∈ r.keys)

/-- The values of a registry as their keys are listed. -/
def Listing.values (listing : Listing κ) (r : Registry κ ν) : List ν :=
  (listing.keys r).filterMap r.get?

/-- The registry with one more entry, unless the key is taken. -/
def insert? (r : Registry κ ν) (key : κ) (value : ν) : Option (Registry κ ν) :=
  if h : key ∈ r.keys then none
  else
    some
      { entries := r.entries ++ [(key, value)]
        nodup := by
          simp only [List.map_append, List.map_cons, List.map_nil, List.nodup_append]
          refine ⟨r.nodup, by simp, ?_⟩
          intro a ha b hb hab
          simp only [List.mem_singleton] at hb
          exact h (hb ▸ hab ▸ ha) }

/-- The registry without the entry of a key. -/
def erase (r : Registry κ ν) (key : κ) : Registry κ ν where
  entries := r.entries.filter (fun e => decide (e.1 ≠ key))
  nodup := r.nodup.sublist (List.filter_sublist.map Prod.fst)

/-- Hands out the value of a key and the registry without it. -/
def remove? (r : Registry κ ν) (key : κ) : Option (ν × Registry κ ν) :=
  (r.get? key).map (fun value => (value, r.erase key))

theorem insert?_eq_none_iff {r : Registry κ ν} {key : κ} {value : ν} :
    r.insert? key value = none ↔ key ∈ r.keys := by
  unfold insert?
  split <;> simp_all

theorem keys_of_insert? {r s : Registry κ ν} {key : κ} {value : ν}
    (h : r.insert? key value = some s) : s.keys = r.keys ++ [key] := by
  unfold insert? at h
  split at h
  · cases h
  · cases h
    simp [keys]

theorem mem_keys_erase {r : Registry κ ν} {key k : κ} :
    k ∈ (r.erase key).keys ↔ k ∈ r.keys ∧ k ≠ key := by
  simp only [keys, erase, List.mem_map, List.mem_filter, decide_eq_true_eq]
  constructor
  · rintro ⟨e, ⟨he, hne⟩, rfl⟩
    exact ⟨⟨e, he, rfl⟩, hne⟩
  · rintro ⟨⟨e, he, rfl⟩, hne⟩
    exact ⟨e, ⟨he, hne⟩, rfl⟩

theorem get?_eq_none_iff {r : Registry κ ν} {key : κ} : r.get? key = none ↔ key ∉ r.keys := by
  simp only [get?, List.lookup_eq_none_iff, keys, List.mem_map, not_exists, not_and]
  constructor
  · intro h e he hk
    simpa [hk] using h e he
  · intro h e he
    exact bne_iff_ne.mpr (fun hk => h e he hk.symm)

/-- After an insertion the key has the value, and every other key what it had. -/
theorem get?_of_insert? {r s : Registry κ ν} {key k : κ} {value : ν}
    (h : r.insert? key value = some s) :
    s.get? k = if k = key then some value else r.get? k := by
  by_cases hkey : key ∈ r.keys
  · rw [insert?_eq_none_iff.mpr hkey] at h
    cases h
  · have hnone := get?_eq_none_iff.mpr hkey
    rw [insert?, dif_neg hkey] at h
    cases h
    unfold get? at hnone ⊢
    by_cases hk : k = key
    · simp [List.lookup_append, hk, hnone]
    · have hne : (k == key) = false := beq_eq_false_iff_ne.mpr hk
      simp [List.lookup_append, List.lookup_cons, hk, hne]

theorem get?_erase (r : Registry κ ν) (key k : κ) :
    (r.erase key).get? k = if k = key then none else r.get? k := by
  by_cases hk : k = key
  · rw [if_pos hk, get?_eq_none_iff, mem_keys_erase]
    exact fun h => h.2 hk
  · rw [if_neg hk]
    simp only [get?, erase]
    generalize r.entries = entries
    induction entries with
    | nil => rfl
    | cons e rest ih =>
      by_cases he : e.1 = key
      · have hne : (k == e.1) = false := beq_eq_false_iff_ne.mpr (he ▸ hk)
        rw [List.filter_cons_of_neg (by simp [he]), List.lookup_cons, hne, ih]
      · rw [List.filter_cons_of_pos (by simp [he]), List.lookup_cons, List.lookup_cons, ih]

/-- Removes an entry in one step. -/
def removeStep (key : κ) : Steps (Registry κ ν) (Option ν) := .atomic fun r =>
  (r.get? key, r.erase key)

/-- Removes the entries of the keys one by one and hands out their values. -/
def removeEach : List κ → Steps (Registry κ ν) (List ν)
  | [] => return []
  | key :: rest => do
    let value ← removeStep key
    let values ← removeEach rest
    return value.toList ++ values

/-- Hands out every value. The keys are listed first and then removed one by one,
so entries that others insert or remove in the meantime are left to them. -/
def takeAll (listing : Listing κ := .oldestFirst) : Steps (Registry κ ν) (List ν) := do
  removeEach (← .read listing.keys)

end Registry

/-- The guids that logged-in sessions hold. -/
abbrev GuidSet := Registry Guid Unit

namespace GuidSet

/-- Takes a guid, unless someone holds it. -/
def reserve? (guids : GuidSet) (guid : Guid) : Option GuidSet := guids.insert? guid ()

/-- Gives a guid back, if it is held. -/
def release? (guids : GuidSet) (guid : Guid) : Option GuidSet :=
  (guids.remove? guid).map Prod.snd

end GuidSet

end PeerRelay
