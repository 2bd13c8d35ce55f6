import Mathlib.Data.List.Chain
import PeerRelay.Steps

/-!
# What the steps of an operation keep

Many facts about a shared state are kept by every single step of an operation,
whoever else takes steps in between. Such a fact is a relation between the
state before and after a step. If the relation is reflexive and transitive it
also holds between the beginning and the end of the operation.
-/

namespace PeerRelay.Steps

variable {σ τ α β : Type} {R : σ → σ → Prop}

/-- The relation holds across every step of the operation, wherever it finds the state. -/
inductive Each (R : σ → σ → Prop) : Steps σ α → Prop where
  | done (a : α) : Each R (done a)
  | step {act : σ → σ} {rest : σ → Steps σ α} (hact : ∀ s, R s (act s))
      (hrest : ∀ s, Each R (rest s)) : Each R (step act rest)

theorem Each.mono {S : σ → σ → Prop} {p : Steps σ α} (h : p.Each R)
    (hRS : ∀ s t, R s t → S s t) : p.Each S := by
  induction h with
  | done a => exact .done a
  | step hact _ ih => exact .step (fun s => hRS s _ (hact s)) ih

theorem Each.and {S : σ → σ → Prop} {p : Steps σ α} (h : p.Each R) (h' : p.Each S) :
    p.Each fun s t => R s t ∧ S s t := by
  induction h with
  | done a => exact .done a
  | step hact _ ih =>
      cases h' with
      | step hact' hrest' => exact .step (fun s => ⟨hact s, hact' s⟩) fun s => ih s (hrest' s)

theorem each_pure (a : α) : (pure a : Steps σ α).Each R := .done a

theorem each_atomic {f : σ → α × σ} (h : ∀ s, R s (f s).2) : (atomic f).Each R :=
  .step h fun _ => .done _

theorem each_modify {f : σ → σ} (h : ∀ s, R s (f s)) : (modify f).Each R :=
  each_atomic h

theorem each_read [Std.Refl R] (f : σ → α) : (read f).Each R :=
  each_atomic Std.Refl.refl

theorem each_bind {p : Steps σ α} {f : α → Steps σ β} (hp : p.Each R)
    (hf : ∀ a, (f a).Each R) : (p >>= f).Each R := by
  induction hp with
  | done a => exact hf a
  | step hact _ ih => exact .step hact ih

theorem each_forM_of_mem {f : α → Steps σ Unit} :
    ∀ {xs : List α}, (∀ a ∈ xs, (f a).Each R) → (xs.forM f).Each R
  | [], _ => each_pure ()
  | a :: _, h => each_bind (h a List.mem_cons_self) fun _ =>
      each_forM_of_mem fun b hb => h b (List.mem_cons_of_mem a hb)

theorem each_forM {f : α → Steps σ Unit} (h : ∀ a, (f a).Each R) (xs : List α) :
    (xs.forM f).Each R :=
  each_forM_of_mem fun a _ => h a

theorem each_within {get : σ → τ} {put : τ → σ → σ} (h : ∀ t s, R s (put t s))
    (p : Steps τ α) : (p.within get put).Each R := by
  induction p with
  | done a => exact .done a
  | step act rest ih => exact .step (fun s => h _ s) fun s => ih (get s)

theorem within_bind {get : σ → τ} {put : τ → σ → σ} {β : Type} (p : Steps τ α)
    (f : α → Steps τ β) :
    (p >>= f).within get put = p.within get put >>= fun a => (f a).within get put := by
  change (p.bind f).within get put = (p.within get put).bind fun a => (f a).within get put
  induction p with
  | done a => rfl
  | step act rest ih => simp only [bind, within, ih]

/-- What every step keeps, the whole operation keeps. -/
theorem rel_exec_of_each [Std.Refl R] [Trans R R R] {p : Steps σ α} (h : p.Each R) (s : σ) :
    R s (p.exec s) := by
  induction h generalizing s with
  | done a => exact Std.Refl.refl s
  | step hact _ ih => exact Trans.trans (hact s) (ih s _)

theorem exec_forM_cons (f : α → Steps σ Unit) (a : α) (xs : List α) (s : σ) :
    ((a :: xs).forM f).exec s = (xs.forM f).exec ((f a).exec s) :=
  exec_bind (f a) (fun _ => xs.forM f) s

/-- A loop keeps what every pass through it keeps. -/
theorem forM_exec_induct {P : σ → Prop} {f : α → Steps σ Unit}
    (h : ∀ a s, P s → P ((f a).exec s)) (xs : List α) (s : σ) (hs : P s) :
    P ((xs.forM f).exec s) := by
  induction xs generalizing s with
  | nil => exact hs
  | cons a xs ih =>
      rw [exec_forM_cons]
      exact ih _ (h a s hs)

/-- An operation on a part of the state that can be read back after it was written
does the same as on its own and leaves the rest alone. -/
theorem run_within_eq {get : σ → τ} {put : τ → σ → σ} {s : σ}
    (get_put : ∀ t, get (put t s) = t) (put_put : ∀ t u, put u (put t s) = put u s)
    (p : Steps τ α) (t : τ) :
    (p.within get put).run (put t s) = ((p.run t).1, put (p.run t).2 s) := by
  induction p generalizing t with
  | done a => rfl
  | step act rest ih =>
      have hstep := ih t (act t)
      simp only [within, run, get_put, put_put]
      exact hstep

/-! ## Moment by moment -/

/-- The states that an operation goes through, one for each of its steps, when nobody gets
in between. The last of them is the state that it leaves behind. -/
def trace : Steps σ α → σ → List σ
  | done _, _ => []
  | step act rest, s => act s :: (rest s).trace (act s)

theorem trace_bind (p : Steps σ α) (f : α → Steps σ β) (s : σ) :
    (p >>= f).trace s = p.trace s ++ (f (p.run s).1).trace (p.exec s) := by
  change (p.bind f).trace s = _
  induction p generalizing s with
  | done a => rfl
  | step act rest ih =>
      have hrest := ih s (act s)
      exact congrArg (act s :: ·) hrest

theorem getLast_trace (p : Steps σ α) (s : σ) :
    (s :: p.trace s).getLast (List.cons_ne_nil _ _) = p.exec s := by
  induction p generalizing s with
  | done a => rfl
  | step act rest ih => exact ih s (act s)

/-- The relation holds across every step that the operation takes from a state, when nobody
gets in between. -/
inductive Along (R : σ → σ → Prop) : Steps σ α → σ → Prop where
  | done (a : α) (s : σ) : Along R (done a) s
  | step {act : σ → σ} {rest : σ → Steps σ α} {s : σ} (hact : R s (act s))
      (hrest : Along R (rest s) (act s)) : Along R (step act rest) s

theorem Along.mono {S : σ → σ → Prop} {p : Steps σ α} {s : σ} (h : p.Along R s)
    (hRS : ∀ s t, R s t → S s t) : p.Along S s := by
  induction h with
  | done a s => exact .done a s
  | step hact _ ih => exact .step (hRS _ _ hact) ih

theorem Each.along {p : Steps σ α} (h : p.Each R) (s : σ) : p.Along R s := by
  induction h generalizing s with
  | done a => exact .done a s
  | step hact _ ih => exact .step (hact s) (ih s _)

/-- What every step keeps in one way, and in another where it finds the state in order, is
kept in the other way all along, if the steps leave the state in order. -/
theorem Each.along_of {P : σ → Prop} {S : σ → σ → Prop} {p : Steps σ α} {s : σ} (h : p.Each R)
    (hkeeps : ∀ s t, P s → R s t → S s t ∧ P t) (hs : P s) : p.Along S s := by
  induction h generalizing s with
  | done a => exact .done a s
  | step hact _ ih =>
      obtain ⟨hstep, hnext⟩ := hkeeps _ _ hs (hact s)
      exact .step hstep (ih s hnext)

theorem Along.and {S : σ → σ → Prop} {p : Steps σ α} {s : σ} (h : p.Along R s)
    (h' : p.Along S s) : p.Along (fun s t => R s t ∧ S s t) s := by
  induction h with
  | done a s => exact .done a s
  | step hact _ ih =>
      cases h' with
      | step hact' hrest' => exact .step ⟨hact, hact'⟩ (ih hrest')

theorem along_pure (a : α) (s : σ) : (pure a : Steps σ α).Along R s := .done a s

theorem along_modify {f : σ → σ} {s : σ} (h : R s (f s)) : (modify f).Along R s :=
  .step h (.done _ _)

theorem along_bind {p : Steps σ α} {f : α → Steps σ β} {s : σ} (hp : p.Along R s)
    (hf : (f (p.run s).1).Along R (p.exec s)) : (p >>= f).Along R s := by
  induction hp with
  | done a s => exact hf
  | step hact _ ih => exact .step hact (ih hf)

/-- What is read is known in what follows. -/
theorem along_read [Std.Refl R] {g : σ → α} {f : α → Steps σ β} {s : σ}
    (hf : (f (g s)).Along R s) : (read g >>= f).Along R s :=
  along_bind ((each_read g).along s) hf

/-- A loop whose every pass keeps an invariant and takes steps in the relation as long as the
invariant holds. -/
theorem along_forM {P : σ → Prop} {f : α → Steps σ Unit} (xs : List α)
    (h : ∀ a ∈ xs, ∀ s, P s → (f a).Along R s ∧ P ((f a).exec s)) (s : σ) (hs : P s) :
    (xs.forM f).Along R s := by
  induction xs generalizing s with
  | nil => exact along_pure () s
  | cons a xs ih =>
      obtain ⟨hone, hP⟩ := h a List.mem_cons_self s hs
      exact along_bind hone (ih (fun b hb => h b (List.mem_cons_of_mem a hb)) _ hP)

/-- What every step is related by, the beginning and the end are. -/
theorem rel_exec_of_along [Std.Refl R] [Trans R R R] {p : Steps σ α} {s : σ}
    (h : p.Along R s) : R s (p.exec s) := by
  induction h with
  | done a s => exact Std.Refl.refl s
  | step hact _ ih => exact Trans.trans hact ih

/-- Every state on the way is related to the state that the operation leaves behind. -/
theorem rel_exec_of_mem_trace [Std.Refl R] [Trans R R R] {p : Steps σ α} {s m : σ}
    (h : p.Along R s) (hm : m ∈ p.trace s) : R m (p.exec s) := by
  induction h with
  | done a s => exact absurd hm List.not_mem_nil
  | step hact hrest ih =>
      rcases List.mem_cons.mp hm with rfl | hm
      · exact rel_exec_of_along hrest
      · exact ih hm

theorem isChain_trace {p : Steps σ α} {s : σ} (h : p.Along R s) :
    (s :: p.trace s).IsChain R := by
  induction h with
  | done a s => exact List.isChain_singleton s
  | step hact _ ih => exact List.isChain_cons_cons.mpr ⟨hact, ih⟩

/-! ## What an operation goes by -/

/-- The operation looks at nothing but what a view shows of a state, and what it changes of that
hangs on nothing else. -/
inductive Sees (v : σ → τ) : Steps σ α → Prop where
  | done (a : α) : Sees v (done a)
  | step {act : σ → σ} {rest : σ → Steps σ α}
      (hact : ∀ s t, v s = v t → v (act s) = v (act t))
      (hsame : ∀ s t, v s = v t → rest s = rest t)
      (hrest : ∀ s, Sees v (rest s)) : Sees v (step act rest)

section

variable {v : σ → τ}

/-- Where two states look the same, they do so after the operation. -/
theorem Sees.exec {p : Steps σ α} (h : p.Sees v) {s t : σ} (hst : v s = v t) :
    v (p.exec s) = v (p.exec t) := by
  induction h generalizing s t with
  | done a => exact hst
  | @step act rest hact hsame _ ih =>
      show v ((rest s).exec (act s)) = v ((rest t).exec (act t))
      rw [← hsame s t hst]
      exact ih s (hact s t hst)

theorem sees_pure (a : α) : (pure a : Steps σ α).Sees v := .done a

theorem sees_atomic {f : σ → α × σ}
    (h : ∀ s t, v s = v t → (f s).1 = (f t).1 ∧ v (f s).2 = v (f t).2) : (atomic f).Sees v :=
  .step (fun s t hst => (h s t hst).2) (fun s t hst => congrArg done (h s t hst).1)
    fun _ => .done _

theorem sees_modify {f : σ → σ} (h : ∀ s t, v s = v t → v (f s) = v (f t)) :
    (modify f).Sees v :=
  sees_atomic fun s t hst => ⟨rfl, h s t hst⟩

theorem sees_bind {p : Steps σ α} {f : α → Steps σ β} (hp : p.Sees v)
    (hf : ∀ a, (f a).Sees v) : (p >>= f).Sees v := by
  induction hp with
  | done a => exact hf a
  | step hact hsame _ ih => exact .step hact (fun s t hst => congrArg (· >>= f) (hsame s t hst)) ih

/-- What is read may be more than the view shows, if no more of it is used. -/
theorem sees_read {g : σ → α} {f : α → Steps σ β}
    (hsame : ∀ s t, v s = v t → f (g s) = f (g t)) (hf : ∀ s, (f (g s)).Sees v) :
    (read g >>= f).Sees v :=
  .step (fun _ _ hst => hst) hsame hf

end

end PeerRelay.Steps
