/-!
# Operations in atomic steps

An operation on a state that is shared is a sequence of atomic steps, and other
operations may get in between two of them. `Steps.run` is what the operation
does when none of them gets in; it turns sequences of operations into sequences
of results.
-/

namespace PeerRelay

/-- An operation on states of type `σ` that ends with a value of type `α`. -/
inductive Steps (σ α : Type) where
  | done (a : α)
  /-- Changes the state at one stroke; how to go on hangs on the state it found. -/
  | step (act : σ → σ) (rest : σ → Steps σ α)

namespace Steps

variable {σ τ α β : Type}

/-- One operation, then another that may use what the first ended with. -/
def bind (p : Steps σ α) (f : α → Steps σ β) : Steps σ β :=
  match p with
  | done a => f a
  | step act rest => step act (fun s => (rest s).bind f)

instance : Monad (Steps σ) where
  pure := done
  bind := bind

/-- One step that changes the state and ends with a value. -/
def atomic (f : σ → α × σ) : Steps σ α := step (fun s => (f s).2) (fun s => done (f s).1)

/-- One step that changes the state. -/
def modify (f : σ → σ) : Steps σ Unit := atomic (fun s => ((), f s))

/-- One step that looks at the state and leaves it alone. -/
def read (f : σ → α) : Steps σ α := atomic (fun s => (f s, s))

/-- An operation on a part of the state. -/
def within (get : σ → τ) (put : τ → σ → σ) : Steps τ α → Steps σ α
  | done a => done a
  | step act rest =>
    step (fun s => put (act (get s)) s) (fun s => (rest (get s)).within get put)

/-- Runs an operation from beginning to end. -/
def run (p : Steps σ α) (s : σ) : α × σ :=
  match p with
  | done a => (a, s)
  | step act rest => (rest s).run (act s)

/-- The state after an operation was run. -/
def exec (p : Steps σ α) (s : σ) : σ := (p.run s).2

@[simp] theorem pure_bind' (a : α) (f : α → Steps σ β) : (done a).bind f = f a := rfl

theorem bind_done (p : Steps σ α) : p.bind done = p := by
  induction p with
  | done a => rfl
  | step act rest ih => simp only [bind, ih]

theorem bind_assoc' {γ : Type} (p : Steps σ α) (f : α → Steps σ β) (g : β → Steps σ γ) :
    (p.bind f).bind g = p.bind (fun a => (f a).bind g) := by
  induction p with
  | done a => rfl
  | step act rest ih => simp only [bind, ih]

instance : LawfulMonad (Steps σ) :=
  LawfulMonad.mk' (Steps σ) bind_done pure_bind' bind_assoc'

@[simp] theorem run_pure (a : α) (s : σ) : (pure a : Steps σ α).run s = (a, s) := rfl

theorem run_bind' (p : Steps σ α) (f : α → Steps σ β) (s : σ) :
    (p.bind f).run s = (f (p.run s).1).run (p.run s).2 := by
  induction p generalizing s with
  | done a => rfl
  | step act rest ih => exact ih s (act s)

@[simp] theorem run_bind (p : Steps σ α) (f : α → Steps σ β) (s : σ) :
    (p >>= f).run s = (f (p.run s).1).run (p.run s).2 := run_bind' p f s

@[simp] theorem run_atomic (f : σ → α × σ) (s : σ) : (atomic f).run s = f s := rfl

@[simp] theorem run_modify (f : σ → σ) (s : σ) : (modify f).run s = ((), f s) := rfl

@[simp] theorem run_read (f : σ → α) (s : σ) : (read f).run s = (f s, s) := rfl

@[simp] theorem exec_pure (a : α) (s : σ) : (pure a : Steps σ α).exec s = s := rfl

theorem exec_bind (p : Steps σ α) (f : α → Steps σ β) (s : σ) :
    (p >>= f).exec s = (f (p.run s).1).exec (p.exec s) := by
  simp [exec]

@[simp] theorem exec_modify (f : σ → σ) (s : σ) : (modify f).exec s = f s := rfl

end Steps

end PeerRelay
