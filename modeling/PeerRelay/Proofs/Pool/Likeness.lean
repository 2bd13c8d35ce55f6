import Mathlib.Data.List.Forall2
import PeerRelay.Proofs.Pool

/-!
# Operations that look alike

Two operations may do the same on states of different kinds, when one looks at the states of the
other through a function. Then they also end alike. Pools of such operations stay alike under
every schedule: what the function leaves out of a state makes no difference to anybody.
-/

namespace PeerRelay

variable {σ τ α β γ δ : Type} {v : σ → τ} {f : α → β}

namespace Steps

/-- The second operation does at every step what the first one does, as far as `v` shows it, and
ends with what `f` makes of the first one's end. -/
inductive Mirrors (v : σ → τ) (f : α → β) : Steps σ α → Steps τ β → Prop where
  | done (a : α) : Mirrors v f (.done a) (.done (f a))
  | step {act : σ → σ} {act' : τ → τ} {rest : σ → Steps σ α} {rest' : τ → Steps τ β}
      (hact : ∀ s, act' (v s) = v (act s)) (hrest : ∀ s, Mirrors v f (rest s) (rest' (v s))) :
      Mirrors v f (.step act rest) (.step act' rest')

theorem Mirrors.run {p : Steps σ α} {q : Steps τ β} (h : Mirrors v f p q) (s : σ) :
    q.run (v s) = (f (p.run s).1, v (p.run s).2) := by
  induction h generalizing s with
  | done a => rfl
  | step hact _ ih =>
      simp only [Steps.run, hact]
      exact ih s _

theorem mirrors_atomic {act : σ → α × σ} {act' : τ → β × τ}
    (h : ∀ s, act' (v s) = (f (act s).1, v (act s).2)) : Mirrors v f (atomic act) (atomic act') := by
  refine .step (fun s => congrArg Prod.snd (h s)) fun s => ?_
  rw [show (act' (v s)).1 = f (act s).1 from congrArg Prod.fst (h s)]
  exact .done _

theorem mirrors_bind {g : γ → δ} {p : Steps σ α} {q : Steps τ β} {k : α → Steps σ γ}
    {k' : β → Steps τ δ} (hp : Mirrors v f p q) (hk : ∀ a, Mirrors v g (k a) (k' (f a))) :
    Mirrors v g (p >>= k) (q >>= k') := by
  induction hp with
  | done a => exact hk a
  | step hact _ ih => exact .step hact ih

end Steps

namespace Pool

open Steps

/-- The second pool is where the first one is, as far as `v` shows it, and its operations do what
those of the first one do. -/
structure Mirrors (v : σ → τ) (f : α → β) (p : Pool σ α) (q : Pool τ β) : Prop where
  state : q.state = v p.state
  tasks : List.Forall₂ (fun t u => t.rest.Mirrors v f u.rest) p.tasks q.tasks

variable {p : Pool σ α} {q : Pool τ β}

theorem mirrors_start {ops : List (Steps σ α)} {ops' : List (Steps τ β)}
    (h : List.Forall₂ (Steps.Mirrors v f) ops ops') (s : σ) :
    Mirrors v f (start s ops) (start (v s) ops') where
  state := rfl
  tasks := List.forall₂_map_left_iff.mpr (List.forall₂_map_right_iff.mpr h)

theorem forall₂_set {R : α → β → Prop} {as : List α} {bs : List β} (h : List.Forall₂ R as bs)
    (i : Nat) {a : α} {b : β} (hab : R a b) : List.Forall₂ R (as.set i a) (bs.set i b) := by
  induction h generalizing i with
  | nil => exact .nil
  | cons hhead htail ih =>
      cases i with
      | zero => exact .cons hab htail
      | succ i => exact .cons hhead (ih i)

/-- Operations that look alike do so after a turn of theirs. -/
theorem turn_mirrors {t : Task σ α} {u : Task τ β} (h : t.rest.Mirrors v f u.rest) (s : σ) :
    (t.turn s).1.rest.Mirrors v f (u.turn (v s)).1.rest ∧ (u.turn (v s)).2 = v (t.turn s).2 := by
  obtain ⟨past, rest⟩ := t
  obtain ⟨past', rest'⟩ := u
  cases h with
  | done a => exact ⟨.done a, rfl⟩
  | step hact hrest => exact ⟨hrest s, hact s⟩

theorem Mirrors.turn (h : Mirrors v f p q) (i : Nat) : Mirrors v f (p.turn i) (q.turn i) := by
  have hlength := h.tasks.length_eq
  rcases Nat.lt_or_ge i p.tasks.length with hi | hi
  · have hi' : i < q.tasks.length := hlength ▸ hi
    have halike := (List.forall₂_iff_get.mp h.tasks).2 i hi hi'
    obtain ⟨hrest, hstate⟩ := turn_mirrors halike p.state
    rw [turn_of_getElem? (List.getElem?_eq_getElem hi),
      turn_of_getElem? (List.getElem?_eq_getElem hi'), h.state]
    exact ⟨hstate, forall₂_set h.tasks i hrest⟩
  · rw [turn_of_none (List.getElem?_eq_none hi), turn_of_none (List.getElem?_eq_none (hlength ▸ hi))]
    exact h

/-- Pools that look alike go on to do so, whoever has which turn. -/
theorem Mirrors.play (h : Mirrors v f p q) (turns : List Nat) :
    Mirrors v f (p.play turns) (q.play turns) := by
  induction turns generalizing p q with
  | nil => exact h
  | cons i turns ih => exact ih (h.turn i)

/-- What is told alike of operations that look alike is told alike of their pools. -/
theorem Mirrors.map_tasks (h : Mirrors v f p q) {F : Task σ α → γ} {G : Task τ β → γ}
    (hFG : ∀ t u, t.rest.Mirrors v f u.rest → F t = G u) : p.tasks.map F = q.tasks.map G := by
  have hsame := h.tasks.imp hFG
  rw [← List.forall₂_map_right_iff, ← List.forall₂_map_left_iff, List.forall₂_eq_eq_eq] at hsame
  exact hsame

theorem result?_mirrors {t : Task σ α} {u : Task τ β} (h : t.rest.Mirrors v f u.rest) :
    t.result?.map f = u.result? := by
  obtain ⟨past, rest⟩ := t
  obtain ⟨past', rest'⟩ := u
  cases h with
  | done a => rfl
  | step _ _ => rfl

theorem Mirrors.results (h : Mirrors v f p q) : p.results.map (Option.map f) = q.results := by
  rw [Pool.results, Pool.results, List.map_map]
  exact h.map_tasks fun _ _ => result?_mirrors

end Pool

end PeerRelay
