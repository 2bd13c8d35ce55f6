import Mathlib.Data.List.Induction
import Mathlib.Data.List.Sort
import Mathlib.Logic.Function.Basic
import PeerRelay.Proofs.Directory

/-!
# What the directory publishes

Changes are handed to the directory at any time, and at any time the worker applies the one that
has waited longest. Whatever the order of all this, the table that is published shows what the
changes applied so far have left: of those about an id the last one counts, and of the records
that are left the first ones in the order of their ids are shown, as many as fit. The store that
is written to on the way has no say in it.
-/

namespace PeerRelay.Directory

/-! ## What changes leave on record -/

/-- An addition stands under its id, over whatever stood there; a deletion leaves nothing under
its id. -/
def Op.change (m : SessionId → Option Record) : Op → SessionId → Option Record
  | .add record => Function.update m record.id (some record)
  | .del id => Function.update m id none

/-- What changes leave under each id, one after another. -/
def onRecord (ops : List Op) : SessionId → Option Record := ops.foldl Op.change fun _ => none

theorem onRecord_snoc (ops : List Op) (op : Op) :
    onRecord (ops ++ [op]) = op.change (onRecord ops) :=
  List.foldl_append

namespace Table

variable {table other : Table} {m : SessionId → Option Record} {record : Record} {id : SessionId}

/-- A table has the records of a map, in the order of their ids. -/
structure Lists (table : Table) (m : SessionId → Option Record) : Prop where
  sorted : table.Sorted
  get : ∀ id record, m id = some record ↔ record ∈ table ∧ record.id = id

/-- There is only one table that does. -/
theorem Lists.unique (h : table.Lists m) (h' : other.Lists m) : table = other := by
  refine List.Pairwise.eq_of_mem_iff h.sorted h'.sorted fun record => ?_
  have hmem := (h.get record.id record).symm.trans (h'.get record.id record)
  simpa using hmem

theorem lists_nil : Lists [] fun _ => none where
  sorted := List.Pairwise.nil
  get := by simp

theorem Lists.insert (h : table.Lists m) (record : Record) :
    (table.insert record).Lists (Op.change m (.add record)) where
  sorted := sorted_insert h.sorted record
  get id other := by
    rw [Op.change, Function.update_apply, mem_insert h.sorted]
    split
    · rename_i hid
      subst hid
      constructor
      · rintro ⟨⟩
        exact ⟨.inl rfl, rfl⟩
      · rintro ⟨rfl | ⟨-, hne⟩, hid⟩
        · rfl
        · exact absurd hid hne
    · rename_i hid
      rw [h.get]
      constructor
      · rintro ⟨hmem, rfl⟩
        exact ⟨.inr ⟨hmem, hid⟩, rfl⟩
      · rintro ⟨rfl | ⟨hmem, -⟩, rfl⟩
        · exact absurd rfl hid
        · exact ⟨hmem, rfl⟩

theorem Lists.erase (h : table.Lists m) (id : SessionId) :
    (table.erase id).Lists (Op.change m (.del id)) where
  sorted := sorted_erase h.sorted id
  get key other := by
    rw [Op.change, Function.update_apply, mem_erase]
    split
    · rename_i hkey
      subst hkey
      exact iff_of_false nofun fun hother => hother.1.2 hother.2
    · rename_i hkey
      rw [h.get]
      constructor
      · rintro ⟨hmem, rfl⟩
        exact ⟨⟨hmem, hkey⟩, rfl⟩
      · rintro ⟨⟨hmem, -⟩, rfl⟩
        exact ⟨hmem, rfl⟩

/-- To delete an id without a record changes nothing. -/
theorem Lists.change_del_of_none (h : table.Lists m) (hnone : table.find? id = none) :
    Op.change m (.del id) = m := by
  have habsent : m id = none := by
    refine Option.eq_none_iff_forall_ne_some.mpr fun record hrecord => ?_
    obtain ⟨hmem, hid⟩ := (h.get id record).mp hrecord
    exact id_ne_of_find?_eq_none hnone hmem hid
  rw [Op.change, ← habsent, Function.update_eq_self]

end Table

/-! ## The worker, one change after another -/

variable {σ τ : Type} {backend : Backend σ} {d : Directory σ} {ops : List Op}

/-- The directory shows what these changes leave. -/
structure Shows (d : Directory σ) (ops : List Op) : Prop where
  listed : d.table.Lists (onRecord ops)
  snapshot : d.snapshot = PeerTable.encode (d.table.map Record.peer)

theorem shows_init (store : σ) : Shows { store } [] := ⟨Table.lists_nil, rfl⟩

theorem Shows.apply (h : Shows d ops) (op : Op) : Shows (d.apply backend op) (ops ++ [op]) := by
  cases op with
  | add record =>
      refine ⟨?_, rfl⟩
      rw [onRecord_snoc]
      exact h.listed.insert record
  | del id =>
      rw [Directory.apply]
      split
      · rename_i hnone
        refine ⟨?_, h.snapshot⟩
        rw [onRecord_snoc, h.listed.change_del_of_none hnone]
        exact h.listed
      · refine ⟨?_, rfl⟩
        rw [onRecord_snoc]
        exact h.listed.erase id

/-- A directory that was new and whose worker has applied these changes. -/
def having (backend : Backend σ) (store : σ) (ops : List Op) : Directory σ :=
  ops.foldl (apply backend) { store }

theorem having_snoc (store : σ) (ops : List Op) (op : Op) :
    having backend store (ops ++ [op]) = (having backend store ops).apply backend op :=
  List.foldl_append

theorem shows_having (backend : Backend σ) (store : σ) (ops : List Op) :
    Shows (having backend store ops) ops := by
  induction ops using List.reverseRecOn with
  | nil => exact shows_init store
  | append_singleton ops op ih =>
      rw [having_snoc]
      exact ih.apply op

theorem queue_having (backend : Backend σ) (store : σ) (ops : List Op) :
    (having backend store ops).queue = [] :=
  (foldl_apply_keeps ..).1

theorem running_having (store : σ) (ops : List Op) : (having backend store ops).running = true :=
  (foldl_apply_keeps ..).2

/-! ## Changes that wait -/

/-- What can happen at the directory: a change is handed to it, or the worker applies the one
that has waited longest. -/
inductive Turn where
  | hand (op : Op)
  | work
  deriving DecidableEq, Repr

/-- The worker applies a change, if one waits. -/
def work (backend : Backend σ) (d : Directory σ) : Directory σ :=
  match d.queue with
  | [] => d
  | op :: rest => apply backend { d with queue := rest } op

def turn (backend : Backend σ) (d : Directory σ) : Turn → Directory σ
  | .hand op => d.enqueue op
  | .work => d.work backend

/-- A new directory after so many turns. -/
def after (backend : Backend σ) (store : σ) (turns : List Turn) : Directory σ :=
  turns.foldl (turn backend) { store }

/-- The changes that were handed to the directory. -/
def handed (turns : List Turn) : List Op :=
  turns.filterMap fun
    | .hand op => some op
    | .work => none

theorem apply_withQueue (d : Directory σ) (queue : List Op) (op : Op) :
    apply backend { d with queue } op = { d.apply backend op with queue } := by
  cases op with
  | add record => rfl
  | del id =>
      simp only [apply]
      split <;> rfl

theorem after_snoc (store : σ) (turns : List Turn) (t : Turn) :
    after backend store (turns ++ [t]) = (after backend store turns).turn backend t :=
  List.foldl_append

theorem handed_snoc (turns : List Turn) (t : Turn) :
    handed (turns ++ [t]) = handed turns ++ handed [t] :=
  List.filterMap_append

/-- The changes that were handed over are those that the worker has applied, and behind them
those that wait. -/
theorem exists_applied (backend : Backend σ) (store : σ) (turns : List Turn) :
    ∃ taken waiting, handed turns = taken ++ waiting ∧
      after backend store turns = { having backend store taken with queue := waiting } := by
  induction turns using List.reverseRecOn with
  | nil => exact ⟨[], [], rfl, rfl⟩
  | append_singleton turns t ih =>
      obtain ⟨taken, waiting, hhanded, hafter⟩ := ih
      rw [handed_snoc, after_snoc, hafter, hhanded]
      cases t with
      | hand op =>
          refine ⟨taken, waiting ++ [op], List.append_assoc .., ?_⟩
          rw [turn, enqueue, if_pos (running_having store taken)]
      | work =>
          rw [show handed [.work] = [] from rfl, List.append_nil]
          cases waiting with
          | nil => exact ⟨taken, [], rfl, rfl⟩
          | cons op waiting =>
              refine ⟨taken ++ [op], waiting, by simp, ?_⟩
              rw [having_snoc]
              exact apply_withQueue (having backend store taken) waiting op

/-- What is applied when nothing waits any more is everything that was handed over. -/
theorem sync_after (backend : Backend σ) (store : σ) (turns : List Turn) :
    (after backend store turns).sync backend = (.ok (), having backend store (handed turns)) := by
  obtain ⟨taken, waiting, hhanded, hafter⟩ := exists_applied backend store turns
  have hrunning : (after backend store turns).running = true := by
    rw [hafter]
    exact running_having store taken
  have hempty : { having backend store taken with queue := [] } = having backend store taken := by
    rw [← queue_having backend store taken]
  rw [sync_of_running hrunning, applied, hafter, hhanded]
  refine congrArg (Prod.mk _) ?_
  rw [hempty, having, having, List.foldl_append]

/-! ## The store has no say -/

/-- Two directories over different stores, alike in everything else. -/
structure Alike (d : Directory σ) (d' : Directory τ) : Prop where
  queue : d.queue = d'.queue
  table : d.table = d'.table
  snapshot : d.snapshot = d'.snapshot
  running : d.running = d'.running

namespace Alike

variable {backend' : Backend τ} {d' : Directory τ}

theorem apply (h : Alike d d') (op : Op) :
    Alike (d.apply backend op) (d'.apply backend' op) := by
  cases op with
  | add record =>
      simp only [Directory.apply, publish, h.table]
      exact ⟨h.queue, rfl, rfl, h.running⟩
  | del id =>
      simp only [Directory.apply, publish, h.table]
      split
      · exact h
      · exact ⟨h.queue, rfl, rfl, h.running⟩

theorem turn (h : Alike d d') (t : Turn) : Alike (d.turn backend t) (d'.turn backend' t) := by
  cases t with
  | hand op =>
      simp only [Directory.turn, enqueue, h.running]
      split
      · exact ⟨congrArg (· ++ [op]) h.queue, h.table, h.snapshot, rfl⟩
      · exact h
  | work =>
      simp only [Directory.turn, work, h.queue]
      split
      · exact h
      · rename_i op rest _
        have hshort : Alike { d with queue := rest } { d' with queue := rest } :=
          ⟨rfl, h.table, h.snapshot, h.running⟩
        exact hshort.apply op

end Alike

end PeerRelay.Directory
