import PeerRelay.Steps

/-!
# Operations side by side

Several operations are under way on one state and take turns. A turn is one atomic
step of one of them, and whose turn it is, is up to a scheduler that the operations do not
know. Each operation remembers the moves that it has made itself.
-/

namespace PeerRelay

/-- A step that was taken: the state that it found and what it did to it. -/
structure Move (σ : Type) where
  found : σ
  act : σ → σ

/-- The state that a move has left behind. -/
def Move.left {σ : Type} (m : Move σ) : σ := m.act m.found

/-- An operation that is under way. -/
structure Task (σ α : Type) where
  /-- The moves so far, the oldest first. -/
  past : List (Move σ) := []
  /-- What there is still to do. -/
  rest : Steps σ α

namespace Task

variable {σ α : Type}

/-- What the operation has ended with, once it has. -/
def result? (t : Task σ α) : Option α :=
  match t.rest with
  | .done a => some a
  | .step .. => none

/-- Takes the next step, if there is one. -/
def turn (t : Task σ α) (s : σ) : Task σ α × σ :=
  match t.rest with
  | .done _ => (t, s)
  | .step act rest => ({ past := t.past ++ [⟨s, act⟩], rest := rest s }, act s)

end Task

/-- Operations that take turns on a state. -/
structure Pool (σ α : Type) where
  state : σ
  tasks : List (Task σ α)

namespace Pool

variable {σ α : Type}

/-- Operations that have not begun yet. -/
def start (s : σ) (ops : List (Steps σ α)) : Pool σ α where
  state := s
  tasks := ops.map fun op => { rest := op }

/-- Gives a task a turn. -/
def turn (p : Pool σ α) (i : Nat) : Pool σ α :=
  match p.tasks[i]? with
  | none => p
  | some t => { state := (t.turn p.state).2, tasks := p.tasks.set i (t.turn p.state).1 }

/-- Gives tasks their turns, one after another. -/
def play (p : Pool σ α) (turns : List Nat) : Pool σ α := turns.foldl turn p

/-- What the operations have ended with, as far as they have ended. -/
def results (p : Pool σ α) : List (Option α) := p.tasks.map Task.result?

/-- No operation is under way any more. -/
def idle (p : Pool σ α) : Prop := ∀ t ∈ p.tasks, t.result?.isSome

instance (p : Pool σ α) : Decidable p.idle := List.decidableBAll _ _

@[simp] theorem play_nil (p : Pool σ α) : p.play [] = p := rfl

@[simp] theorem play_cons (p : Pool σ α) (i : Nat) (turns : List Nat) :
    p.play (i :: turns) = (p.turn i).play turns := rfl

end Pool

end PeerRelay
