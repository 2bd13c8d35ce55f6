import Mathlib.Logic.Function.Basic
import PeerRelay.Pool
import PeerRelay.Proofs.Steps

/-!
# Protocols for operations that take turns

What many operations do to a state together is told by what each of them does at each of its
steps, whatever it finds. For that an operation is thought of as having something on its
hands, its note, that no other operation changes: a place it has taken, or something it has
begun and must still undo. A protocol says what the state is in view of all the notes, and how
a note may change by a step. Operations that follow a protocol, each by itself, keep it
together under every schedule.
-/

namespace PeerRelay

open Steps

variable {σ γ α β : Type}

/-- What operations side by side agree on. -/
structure Protocol (σ γ : Type) where
  /-- How the state is, given the note of every operation. -/
  Inv : (Nat → γ) → σ → Prop
  /-- How a note may change by a step of the operation that it belongs to. -/
  Notes : γ → Move σ → γ → Prop

namespace Protocol

variable {P : Protocol σ γ} {i : Nat} {g : γ}

/-- Operation `i`, with a note on its hands, keeps the protocol at every step, wherever the
others have left the state, and ends as it should. -/
def Follows (P : Protocol σ γ) (i : Nat) (Q : α → γ → Prop) : Steps σ α → γ → Prop
  | .done a, g => Q a g
  | .step act rest, g => ∀ notes s, notes i = g → P.Inv notes s →
      ∃ g', P.Notes g ⟨s, act⟩ g' ∧ P.Inv (Function.update notes i g') (act s) ∧
        P.Follows i Q (rest s) g'

section

variable {Q Q' : α → γ → Prop}

theorem Follows.mono {p : Steps σ α} (h : P.Follows i Q p g) (hQ : ∀ a g, Q a g → Q' a g) :
    P.Follows i Q' p g := by
  induction p generalizing g with
  | done a => exact hQ a g h
  | step act rest ih =>
      intro notes s hg hs
      obtain ⟨g', hnotes, hinv, hrest⟩ := h notes s hg hs
      exact ⟨g', hnotes, hinv, ih s hrest⟩

theorem follows_pure {a : α} (h : Q a g) : P.Follows i Q (pure a) g := h

theorem follows_bind {p : Steps σ α} {f : α → Steps σ β} {T : β → γ → Prop}
    (hp : P.Follows i Q p g) (hf : ∀ a g, Q a g → P.Follows i T (f a) g) :
    P.Follows i T (p >>= f) g := by
  change P.Follows i T (p.bind f) g
  induction p generalizing g with
  | done a => exact hf a g hp
  | step act rest ih =>
      intro notes s hg hs
      obtain ⟨g', hnotes, hinv, hrest⟩ := hp notes s hg hs
      exact ⟨g', hnotes, hinv, ih s hrest⟩

/-- An operation goes on with the note that it has, when its first part leaves it as it is. -/
theorem follows_bind_of_kept {p : Steps σ α} {f : α → Steps σ β} {T : β → γ → Prop}
    (hp : P.Follows i (fun _ g' => g' = g) p g) (hf : ∀ a, P.Follows i T (f a) g) :
    P.Follows i T (p >>= f) g :=
  follows_bind hp fun a _ hg => hg ▸ hf a

theorem follows_atomic {f : σ → α × σ}
    (h : ∀ notes s, notes i = g → P.Inv notes s →
      ∃ g', P.Notes g ⟨s, fun s => (f s).2⟩ g' ∧ P.Inv (Function.update notes i g') (f s).2 ∧
        Q (f s).1 g') :
    P.Follows i Q (atomic f) g := h

theorem follows_modify {f : σ → σ} {T : Unit → γ → Prop}
    (h : ∀ notes s, notes i = g → P.Inv notes s →
      ∃ g', P.Notes g ⟨s, f⟩ g' ∧ P.Inv (Function.update notes i g') (f s) ∧ T () g') :
    P.Follows i T (modify f) g := h

/-- Steps that change nothing that the protocol speaks of leave the note as it is. -/
theorem follows_of_each {R : σ → σ → Prop} {p : Steps σ α} (h : p.Each R)
    (hkeeps : ∀ notes s act, notes i = g → P.Inv notes s → (∀ s, R s (act s)) →
      P.Notes g ⟨s, act⟩ g ∧ P.Inv notes (act s)) :
    P.Follows i (fun _ g' => g' = g) p g := by
  induction h with
  | done a => exact rfl
  | step hact _ ih =>
      intro notes s hg hs
      obtain ⟨hnotes, hinv⟩ := hkeeps notes s _ hg hs hact
      subst hg
      exact ⟨notes i, hnotes, by rwa [Function.update_eq_self], ih s⟩

/-- An operation that nobody gets in between of ends as it should and leaves the state in order. -/
theorem Follows.run {p : Steps σ α} (h : P.Follows i Q p g) {notes : Nat → γ} {s : σ}
    (hg : notes i = g) (hs : P.Inv notes s) :
    ∃ g', Q (p.run s).1 g' ∧ P.Inv (Function.update notes i g') (p.exec s) := by
  induction p generalizing g notes s with
  | done a =>
      subst hg
      exact ⟨notes i, h, by rwa [Function.update_eq_self]⟩
  | step act rest ih =>
      obtain ⟨g', -, hinv, hrest⟩ := h notes s hg hs
      obtain ⟨last, hend, hlast⟩ := ih s hrest (Function.update_self ..) hinv
      exact ⟨last, hend, by rwa [Function.update_idem] at hlast⟩

/-- A loop every pass of which leaves a note of the kind that it began with. -/
theorem follows_forM {I : γ → Prop} {f : β → Steps σ Unit}
    (h : ∀ b g, I g → P.Follows i (fun _ => I) (f b) g) :
    ∀ (bs : List β) {g : γ}, I g → P.Follows i (fun _ => I) (bs.forM f) g
  | [], _, hg => follows_pure hg
  | b :: bs, _, hg => follows_bind (h b _ hg) fun _ _ => follows_forM h bs

end

/-- What an operation may have noted in the course of its moves. -/
inductive Noted (P : Protocol σ γ) (first : γ) : List (Move σ) → γ → Prop where
  | nil : Noted P first [] first
  | snoc {past : List (Move σ)} {g g' : γ} {m : Move σ} (hpast : Noted P first past g)
      (hnotes : P.Notes g m g') : Noted P first (past ++ [m]) g'

/-- Each move was made with a note on the hands that allowed it. -/
theorem Noted.of_append {first : γ} {before after : List (Move σ)} {m : Move σ}
    (h : P.Noted first (before ++ m :: after) g) :
    ∃ h h', P.Noted first before h ∧ P.Notes h m h' := by
  generalize hpast : before ++ m :: after = past at h
  induction h generalizing after with
  | nil => simp at hpast
  | snoc hbefore hnotes ih =>
      rcases List.eq_nil_or_concat after with rfl | ⟨earlier, last, rfl⟩
      · obtain ⟨rfl, hm⟩ := List.append_inj' hpast rfl
        cases hm
        exact ⟨_, _, hbefore, hnotes⟩
      · rw [List.concat_eq_append, ← List.cons_append, ← List.append_assoc] at hpast
        exact ih (List.append_inj' hpast rfl).1

end Protocol

namespace Task

variable {t : Task σ α}

theorem turn_of_done {a : α} (h : t.rest = .done a) (s : σ) : t.turn s = (t, s) := by
  rw [turn, h]

theorem turn_of_step {act : σ → σ} {rest : σ → Steps σ α} (h : t.rest = .step act rest) (s : σ) :
    (t.turn s).1.rest = rest s ∧ (t.turn s).2 = act s := by
  rw [turn, h]
  exact ⟨rfl, rfl⟩

theorem result?_of_done {a : α} (h : t.rest = .done a) : t.result? = some a := by
  rw [result?, h]

theorem result?_of_step {act : σ → σ} {rest : σ → Steps σ α} (h : t.rest = .step act rest) :
    t.result? = none := by
  rw [result?, h]

end Task

namespace Pool

variable {P : Protocol σ γ} {Q : Nat → α → γ → Prop} {first notes : Nat → γ} {p : Pool σ α}

/-- The operations of a pool keep a protocol: so far, and in everything they may still do. -/
structure Keeps (P : Protocol σ γ) (first : Nat → γ) (Q : Nat → α → γ → Prop) (p : Pool σ α)
    (notes : Nat → γ) : Prop where
  inv : P.Inv notes p.state
  follows : ∀ i t, p.tasks[i]? = some t → P.Follows i (Q i) t.rest (notes i)
  noted : ∀ i t, p.tasks[i]? = some t → P.Noted (first i) t.past (notes i)
  others : ∀ i, p.tasks.length ≤ i → notes i = first i

/-- Operations that each follow the protocol keep it together when they begin. -/
theorem keeps_start {s : σ} {ops : List (Steps σ α)} (hinv : P.Inv first s)
    (h : ∀ i op, ops[i]? = some op → P.Follows i (Q i) op (first i)) :
    Keeps P first Q (start s ops) first where
  inv := hinv
  follows i t ht := by
    obtain ⟨op, hop, rfl⟩ := List.getElem?_map .. ▸ ht |> Option.map_eq_some_iff.mp
    exact h i op hop
  noted i t ht := by
    obtain ⟨op, _, rfl⟩ := List.getElem?_map .. ▸ ht |> Option.map_eq_some_iff.mp
    exact .nil
  others _ _ := rfl

@[simp] theorem length_tasks_turn (p : Pool σ α) (i : Nat) :
    (p.turn i).tasks.length = p.tasks.length := by
  unfold turn
  split <;> simp

theorem turn_of_none {i : Nat} (h : p.tasks[i]? = none) : p.turn i = p := by
  rw [Pool.turn, h]

theorem turn_of_getElem? {i : Nat} {t : Task σ α} (ht : p.tasks[i]? = some t) :
    p.turn i = ⟨(t.turn p.state).2, p.tasks.set i (t.turn p.state).1⟩ := by
  rw [Pool.turn, ht]

theorem state_turn {i : Nat} {t : Task σ α} (ht : p.tasks[i]? = some t) :
    (p.turn i).state = (t.turn p.state).2 := by
  rw [turn_of_getElem? ht]

/-- A turn of one operation leaves what the others have to do as it is. -/
theorem getElem?_turn (p : Pool σ α) (i j : Nat) :
    (p.turn i).tasks[j]? =
      if i = j then p.tasks[j]?.map fun t => (t.turn p.state).1 else p.tasks[j]? := by
  by_cases hij : i = j
  · subst hij
    rw [if_pos rfl]
    cases ht : p.tasks[i]? with
    | none => rw [turn_of_none ht, ht, Option.map_none]
    | some t =>
        rw [turn_of_getElem? ht]
        exact List.getElem?_set_self (List.getElem?_eq_some_iff.mp ht).1
  · rw [if_neg hij]
    cases ht : p.tasks[i]? with
    | none => rw [turn_of_none ht]
    | some t =>
        rw [turn_of_getElem? ht]
        exact List.getElem?_set_ne hij

theorem getElem?_turn_self {i : Nat} {t : Task σ α} (ht : p.tasks[i]? = some t) :
    (p.turn i).tasks[i]? = some (t.turn p.state).1 := by
  rw [getElem?_turn, if_pos rfl, ht, Option.map_some]

/-- A turn of one operation keeps the protocol; only its own note may change. -/
theorem Keeps.turn (h : Keeps P first Q p notes) (i : Nat) :
    ∃ notes', Keeps P first Q (p.turn i) notes' := by
  unfold Pool.turn
  split
  · exact ⟨notes, h⟩
  · rename_i t ht
    have hi : i < p.tasks.length := (List.getElem?_eq_some_iff.mp ht).1
    have hfollows := h.follows i t ht
    have hnoted := h.noted i t ht
    obtain ⟨past, rest⟩ := t
    cases rest with
    | done a =>
        -- An operation that is over makes no move, and nothing changes.
        have hset : p.tasks.set i ⟨past, .done a⟩ = p.tasks := by
          obtain ⟨hlt, hget⟩ := List.getElem?_eq_some_iff.mp ht
          rw [← hget, List.set_getElem_self]
        refine ⟨notes, ?_⟩
        simp only [Task.turn, hset]
        exact h
    | step act rest =>
        -- The others have neither moved nor changed their notes; what they still have to do
        -- keeps the protocol from any state that fits the notes.
        obtain ⟨g, hnotes, hinv, hrest⟩ := hfollows notes p.state rfl h.inv
        refine ⟨Function.update notes i g, hinv, ?follows, ?noted, ?others⟩
        case follows =>
          intro j u hu
          by_cases hij : i = j
          · subst hij
            rw [List.getElem?_set_self hi] at hu
            cases hu
            rwa [Function.update_self]
          · rw [List.getElem?_set_ne hij] at hu
            rw [Function.update_of_ne (Ne.symm hij)]
            exact h.follows j u hu
        case noted =>
          intro j u hu
          by_cases hij : i = j
          · subst hij
            rw [List.getElem?_set_self hi] at hu
            cases hu
            rw [Function.update_self]
            exact .snoc hnoted hnotes
          · rw [List.getElem?_set_ne hij] at hu
            rw [Function.update_of_ne (Ne.symm hij)]
            exact h.noted j u hu
        case others =>
          intro j hj
          rw [List.length_set] at hj
          rw [Function.update_of_ne (Nat.ne_of_gt (Nat.lt_of_lt_of_le hi hj))]
          exact h.others j hj

/-- Operations that each follow the protocol keep it together, whoever has which turn. -/
theorem Keeps.play (h : Keeps P first Q p notes) (turns : List Nat) :
    ∃ notes', Keeps P first Q (p.play turns) notes' := by
  induction turns generalizing p notes with
  | nil => exact ⟨notes, h⟩
  | cons i turns ih =>
      obtain ⟨notes', h'⟩ := h.turn i
      exact ih h'

/-- An operation that is over has ended as it should. -/
theorem Keeps.ended (h : Keeps P first Q p notes) {i : Nat} {t : Task σ α} {a : α}
    (ht : p.tasks[i]? = some t) (ha : t.result? = some a) : Q i a (notes i) := by
  have hfollows := h.follows i t ht
  obtain ⟨past, rest⟩ := t
  cases rest with
  | done b =>
      cases ha
      exact hfollows
  | step act rest => cases ha

@[simp] theorem length_tasks_play (p : Pool σ α) (turns : List Nat) :
    (p.play turns).tasks.length = p.tasks.length := by
  induction turns generalizing p with
  | nil => rfl
  | cons i turns ih => rw [play_cons, ih, length_tasks_turn]

/-- The moves of a task, made and to be made, are related to what they found. -/
def Moves (R : σ → σ → Prop) (t : Task σ α) : Prop :=
  t.rest.Each R ∧ ∀ m ∈ t.past, R m.found m.left

theorem Moves.turn {R : σ → σ → Prop} {t : Task σ α} (h : Moves R t) (s : σ) :
    Moves R (t.turn s).1 := by
  obtain ⟨hrest, hpast⟩ := h
  obtain ⟨past, rest⟩ := t
  cases hrest with
  | done a => exact ⟨.done a, hpast⟩
  | step hact hrest =>
      refine ⟨hrest s, fun m hm => ?_⟩
      rcases List.mem_append.mp hm with hm | hm
      · exact hpast m hm
      · obtain rfl := List.mem_singleton.mp hm
        exact hact s

theorem moves_turn {R : σ → σ → Prop} {i : Nat} (h : ∀ t, p.tasks[i]? = some t → Moves R t)
    (j : Nat) : ∀ t, (p.turn j).tasks[i]? = some t → Moves R t := by
  intro t ht
  rw [getElem?_turn] at ht
  split at ht
  · obtain ⟨u, hu, rfl⟩ := Option.map_eq_some_iff.mp ht
    exact (h u hu).turn p.state
  · exact h t ht

theorem moves_play {R : σ → σ → Prop} {i : Nat} (h : ∀ t, p.tasks[i]? = some t → Moves R t)
    (turns : List Nat) : ∀ t, (p.play turns).tasks[i]? = some t → Moves R t := by
  induction turns generalizing p with
  | nil => exact h
  | cons j turns ih => exact ih (moves_turn h j)

/-- What every step of an operation keeps, each of its moves has kept, whoever had which turn. -/
theorem moves_of_each {R : σ → σ → Prop} {s : σ} {ops : List (Steps σ α)} {i : Nat}
    {op : Steps σ α} (hop : ops[i]? = some op) (h : op.Each R) (turns : List Nat) {t : Task σ α}
    (ht : ((start s ops).play turns).tasks[i]? = some t) : ∀ m ∈ t.past, R m.found m.left := by
  refine (moves_play (p := start s ops) (fun u hu => ?_) turns t ht).2
  have hfirst : (start s ops).tasks[i]? = some { rest := op } := by
    simp only [start, List.getElem?_map, hop, Option.map_some]
  cases hfirst.symm.trans hu
  exact ⟨h, nofun⟩

/-- Every step that is still to come is related to what it finds, whatever that is. -/
def Each (R : σ → σ → Prop) (p : Pool σ α) : Prop := ∀ t ∈ p.tasks, t.rest.Each R

theorem each_start {R : σ → σ → Prop} {s : σ} {ops : List (Steps σ α)}
    (h : ∀ op ∈ ops, op.Each R) : (start s ops).Each R := by
  intro t ht
  obtain ⟨op, hop, rfl⟩ := List.mem_map.mp ht
  exact h op hop

theorem Each.turn {R : σ → σ → Prop} (h : p.Each R) (i : Nat) : (p.turn i).Each R := by
  unfold Pool.turn
  split
  · exact h
  · rename_i t ht
    intro u hu
    rcases List.mem_or_eq_of_mem_set hu with hu | rfl
    · exact h u hu
    · have hrest := h t (List.mem_of_getElem? ht)
      obtain ⟨past, rest⟩ := t
      cases hrest with
      | done a => exact .done a
      | step _ hrest => exact hrest _

theorem Each.play {R : σ → σ → Prop} (h : p.Each R) (turns : List Nat) :
    (p.play turns).Each R := by
  induction turns generalizing p with
  | nil => exact h
  | cons i turns ih => exact ih (h.turn i)

theorem Each.state_turn {R : σ → σ → Prop} [Std.Refl R] (h : p.Each R) (i : Nat) :
    R p.state (p.turn i).state := by
  unfold Pool.turn
  split
  · exact Std.Refl.refl _
  · rename_i t ht
    have hrest := h t (List.mem_of_getElem? ht)
    obtain ⟨past, rest⟩ := t
    cases hrest with
    | done a => exact Std.Refl.refl _
    | step hact _ => exact hact p.state

/-- What every step keeps holds between any two moments, whoever has which turn in between. -/
theorem Each.state_play {R : σ → σ → Prop} [Std.Refl R] [Trans R R R] (h : p.Each R)
    (turns : List Nat) : R p.state (p.play turns).state := by
  induction turns generalizing p with
  | nil => exact Std.Refl.refl _
  | cons i turns ih => exact Trans.trans (h.state_turn i) (ih (h.turn i))

/-- The states that a pool goes through, one for each turn. -/
def states (p : Pool σ α) : List Nat → List σ
  | [] => []
  | i :: turns => (p.turn i).state :: (p.turn i).states turns

theorem Each.isChain_states {R : σ → σ → Prop} [Std.Refl R] (h : p.Each R) (turns : List Nat) :
    (p.state :: p.states turns).IsChain R := by
  induction turns generalizing p with
  | nil => exact List.isChain_singleton _
  | cons i turns ih => exact List.isChain_cons_cons.mpr ⟨h.state_turn i, ih (h.turn i)⟩

theorem getLast_states (p : Pool σ α) (turns : List Nat) :
    (p.state :: p.states turns).getLast (List.cons_ne_nil _ _) = (p.play turns).state := by
  induction turns generalizing p with
  | nil => rfl
  | cons i turns ih => exact ih (p.turn i)

/-- What every step of every operation keeps, holds however far they have come. -/
theorem state_play_of_each {I : σ → Prop} {R : σ → σ → Prop} {s : σ} {ops : List (Steps σ α)}
    (hops : ∀ op ∈ ops, op.Each R) (hkeeps : ∀ s t, I s → R s t → I t) (hs : I s)
    (turns : List Nat) : I ((start s ops).play turns).state := by
  let Kept (s t : σ) : Prop := I s → I t
  have : Std.Refl Kept := ⟨fun _ hI => hI⟩
  have : Trans Kept Kept Kept := ⟨fun h h' hI => h' (h hI)⟩
  have hkept : (start s ops).Each Kept :=
    each_start fun op hop => (hops op hop).mono fun s t hR hI => hkeeps s t hI hR
  exact hkept.state_play turns hs

end Pool

/-! ## One operation gets in between the steps of another -/

namespace Steps

/-- What is left of an operation after so many steps that nobody got in between, and the state
that they have led to. -/
def advance : Nat → Steps σ α → σ → Steps σ α × σ
  | 0, p, s => (p, s)
  | _ + 1, .done a, s => (.done a, s)
  | n + 1, .step act rest, s => advance n (rest s) (act s)

theorem advance_done (n : Nat) (a : α) (s : σ) :
    advance n (.done a : Steps σ α) s = (.done a, s) := by
  cases n <;> rfl

theorem run_advance (n : Nat) (p : Steps σ α) (s : σ) :
    (advance n p s).1.run (advance n p s).2 = p.run s := by
  induction n generalizing p s with
  | zero => rfl
  | succ n ih =>
      cases p with
      | done a => rfl
      | step act rest => exact ih (rest s) (act s)

theorem advance_bind (p : Steps σ α) (f : α → Steps σ β) (n : Nat) (s : σ) :
    advance ((p.trace s).length + n) (p >>= f) s = advance n (f (p.run s).1) (p.exec s) := by
  change advance ((p.trace s).length + n) (p.bind f) s = _
  induction p generalizing s with
  | done a =>
      have hlength : ((Steps.done a : Steps σ α).trace s).length + n = n := Nat.zero_add n
      rw [hlength]
      rfl
  | step act rest ih =>
      have hlength : ((Steps.step act rest).trace s).length + n =
          ((rest s).trace (act s)).length + n + 1 := Nat.add_right_comm ..
      rw [hlength]
      exact ih s (act s)

/-- An operation that had all its steps is over. -/
theorem advance_of_le {n : Nat} {p : Steps σ α} {s : σ} (h : (p.trace s).length ≤ n) :
    advance n p s = (.done (p.run s).1, p.exec s) := by
  have hall := advance_bind p done (n - (p.trace s).length) s
  rw [Nat.add_sub_cancel' h, advance_done] at hall
  rw [← hall]
  exact congrArg (advance n · s) (bind_done p).symm

end Steps

namespace Pool

theorem play_append (p : Pool σ α) (turns others : List Nat) :
    p.play (turns ++ others) = (p.play turns).play others :=
  List.foldl_append

/-- Several turns of one operation, with nobody in between. -/
theorem play_replicate {p : Pool σ α} {i : Nat} {t : Task σ α} (ht : p.tasks[i]? = some t)
    (n : Nat) : ∃ past, p.play (List.replicate n i) =
      { state := (advance n t.rest p.state).2
        tasks := p.tasks.set i ⟨past, (advance n t.rest p.state).1⟩ } := by
  induction n generalizing p t with
  | zero =>
      obtain ⟨hi, hget⟩ := List.getElem?_eq_some_iff.mp ht
      have hset : p.tasks.set i ⟨t.past, t.rest⟩ = p.tasks := by
        rw [show (⟨t.past, t.rest⟩ : Task σ α) = p.tasks[i] from hget.symm,
          List.set_getElem_self]
      exact ⟨t.past, congrArg (Pool.mk p.state) hset.symm⟩
  | succ n ih =>
      have hi : i < p.tasks.length := (List.getElem?_eq_some_iff.mp ht).1
      have hturn := turn_of_getElem? ht
      obtain ⟨past, hpast⟩ := ih (p := p.turn i) (t := (t.turn p.state).1)
        (by rw [hturn]; exact List.getElem?_set_self hi)
      refine ⟨past, ?_⟩
      rw [List.replicate_succ, play_cons, hpast, hturn, List.set_set]
      obtain ⟨before, rest⟩ := t
      cases rest with
      | done a => simp only [Task.turn, advance_done]
      | step act rest => rfl

/-- One operation has some turns, then another all of its own, and then the first one the
others. -/
theorem state_of_overtaken {s : σ} {p q : Steps σ α} {a b d : Nat}
    (hidle : ((start s [p, q]).play (List.replicate a 0 ++ List.replicate b 1 ++
      List.replicate d 0)).idle) :
    ((start s [p, q]).play (List.replicate a 0 ++ List.replicate b 1 ++
      List.replicate d 0)).state = (advance a p s).1.exec (q.exec (advance a p s).2) := by
  -- An operation that is over when its turns end has had all its steps in them.
  have hover {n : Nat} {p : Steps σ α} {s : σ} {past : List (Move σ)}
      (h : (⟨past, (advance n p s).1⟩ : Task σ α).result?.isSome) :
      (advance n p s).2 = p.exec s := by
    have hrun := run_advance n p s
    generalize advance n p s = cut at h hrun ⊢
    obtain ⟨rest, t⟩ := cut
    cases rest with
    | done x => exact congrArg Prod.snd hrun
    | step act rest => cases h
  rw [play_append, play_append] at hidle ⊢
  obtain ⟨past, hfirst⟩ : ∃ past, (start s [p, q]).play (List.replicate a 0) =
      ⟨(advance a p s).2, [⟨past, (advance a p s).1⟩, ⟨[], q⟩]⟩ :=
    play_replicate (p := start s [p, q]) (t := ⟨[], p⟩) (i := 0) rfl a
  rw [hfirst] at hidle ⊢
  generalize (advance a p s).1 = p₁ at hidle ⊢
  generalize (advance a p s).2 = s₁ at hidle ⊢
  obtain ⟨past', hsecond⟩ : ∃ past', (⟨s₁, [⟨past, p₁⟩, ⟨[], q⟩]⟩ : Pool σ α).play
      (List.replicate b 1) = ⟨(advance b q s₁).2, [⟨past, p₁⟩, ⟨past', (advance b q s₁).1⟩]⟩ :=
    play_replicate (t := ⟨[], q⟩) (i := 1) rfl b
  rw [hsecond] at hidle ⊢
  obtain ⟨last, hthird⟩ : ∃ last, (⟨(advance b q s₁).2,
      [⟨past, p₁⟩, ⟨past', (advance b q s₁).1⟩]⟩ : Pool σ α).play (List.replicate d 0) =
      ⟨(advance d p₁ (advance b q s₁).2).2, [⟨last, (advance d p₁ (advance b q s₁).2).1⟩,
        ⟨past', (advance b q s₁).1⟩]⟩ := play_replicate (t := ⟨past, p₁⟩) (i := 0) rfl d
  rw [hthird] at hidle ⊢
  have hq := hover (hidle _ (List.mem_cons_of_mem _ List.mem_cons_self))
  have hp := hover (hidle _ List.mem_cons_self)
  exact hp.trans (congrArg p₁.exec hq)

end Pool

end PeerRelay
