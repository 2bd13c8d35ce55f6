import Mathlib.Data.List.Nodup
import PeerRelay.Directory
import PeerRelay.Proofs.Wire.PeerTable

/-!
# What the directory holds

Once the worker has applied what is queued, the table has the records that are present, in
the order of their ids, the published peer table is made of it, and the store has the same
records under their guids. It stays so when a record comes in whose id and guid are new,
and when a record goes out whose guid no other has.
-/

namespace PeerRelay.Directory

/-! ## The table -/

namespace Table

variable {table : Table} {record other : Record} {id : SessionId}

/-- Ids go up along the table. -/
def Sorted (table : Table) : Prop := table.Pairwise fun a b => a.id < b.id

theorem mem_insert (h : table.Sorted) :
    other ∈ table.insert record ↔ other = record ∨ other ∈ table ∧ other.id ≠ record.id := by
  induction table with
  | nil => simp [insert]
  | cons r rest ih =>
      obtain ⟨hr, hrest⟩ := List.pairwise_cons.mp h
      have hne (hmem : other ∈ rest) (hid : record.id ≤ r.id) : other.id ≠ record.id := by
        intro heq
        exact absurd (UInt32.lt_of_le_of_lt hid (hr other hmem)) (heq ▸ UInt32.lt_irrefl _)
      rw [insert]
      split
      · rename_i hlt
        rw [List.mem_cons, List.mem_cons]
        refine or_congr_right ⟨fun hmem => ⟨hmem, ?_⟩, And.left⟩
        rcases hmem with rfl | hmem
        · exact fun heq => absurd hlt (heq ▸ UInt32.lt_irrefl _)
        · exact hne hmem (UInt32.le_of_lt hlt)
      · split
        · rename_i heq
          rw [List.mem_cons, List.mem_cons]
          refine or_congr_right ⟨fun hmem => ⟨.inr hmem, hne hmem (UInt32.le_of_eq heq)⟩, ?_⟩
          rintro ⟨rfl | hmem, hid⟩
          · exact absurd heq.symm hid
          · exact hmem
        · rename_i hid
          rw [List.mem_cons, ih hrest, List.mem_cons]
          constructor
          · rintro (rfl | rfl | ⟨hmem, hother⟩)
            · exact .inr ⟨.inl rfl, fun heq => hid heq.symm⟩
            · exact .inl rfl
            · exact .inr ⟨.inr hmem, hother⟩
          · rintro (rfl | ⟨rfl | hmem, hother⟩)
            · exact .inr (.inl rfl)
            · exact .inl rfl
            · exact .inr (.inr ⟨hmem, hother⟩)

theorem sorted_insert (h : table.Sorted) (record : Record) : (table.insert record).Sorted := by
  induction table with
  | nil => exact List.pairwise_singleton _ _
  | cons r rest ih =>
      obtain ⟨hr, hrest⟩ := List.pairwise_cons.mp h
      rw [insert]
      split
      · rename_i hlt
        refine List.pairwise_cons.mpr ⟨fun other hmem => ?_, h⟩
        rcases List.mem_cons.mp hmem with rfl | hmem
        · exact hlt
        · exact UInt32.lt_trans hlt (hr other hmem)
      · split
        · rename_i heq
          refine List.pairwise_cons.mpr ⟨fun other hmem => ?_, hrest⟩
          rw [heq]
          exact hr other hmem
        · rename_i hnlt hid
          have hlt : r.id < record.id :=
            UInt32.lt_of_le_of_ne (UInt32.not_lt.mp hnlt) fun heq => hid heq.symm
          refine List.pairwise_cons.mpr ⟨fun other hmem => ?_, ih hrest⟩
          rcases (mem_insert hrest).mp hmem with rfl | ⟨hmem, -⟩
          · exact hlt
          · exact hr other hmem

theorem mem_erase : other ∈ table.erase id ↔ other ∈ table ∧ other.id ≠ id := by
  simp [erase]

theorem sorted_erase (h : table.Sorted) (id : SessionId) : (table.erase id).Sorted :=
  List.Pairwise.filter _ h

theorem mem_of_find? (h : table.find? id = some record) : record ∈ table ∧ record.id = id :=
  ⟨List.mem_of_find?_eq_some h, by simpa using List.find?_some h⟩

/-- Ids go up along the table, so no two records have the same. -/
theorem Sorted.eq_of_id (h : table.Sorted) (hrecord : record ∈ table) (hother : other ∈ table)
    (hid : record.id = other.id) : record = other :=
  List.inj_on_of_nodup_map (List.pairwise_map.mpr (h.imp UInt32.ne_of_lt)) hrecord hother hid

theorem id_ne_of_find?_eq_none (h : table.find? id = none) (hmem : other ∈ table) :
    other.id ≠ id := by
  simpa using List.find?_eq_none.mp h other hmem

end Table

/-! ## The worker -/

section Worker

variable {σ : Type} {backend : Backend σ} {d : Directory σ}

/-- The directory when the worker has applied everything that is queued. -/
def applied (backend : Backend σ) (d : Directory σ) : Directory σ :=
  d.queue.foldl (apply backend) { d with queue := [] }

theorem sync_of_running (h : d.running = true) : d.sync backend = (.ok (), d.applied backend) := by
  simp only [sync, h, if_true, applied]

theorem queue_apply (d : Directory σ) (op : Op) : (d.apply backend op).queue = d.queue := by
  cases op with
  | add record => rfl
  | del id =>
      rw [apply]
      split <;> rfl

theorem running_apply (d : Directory σ) (op : Op) : (d.apply backend op).running = d.running := by
  cases op with
  | add record => rfl
  | del id =>
      rw [apply]
      split <;> rfl

theorem foldl_apply_keeps (ops : List Op) (d : Directory σ) :
    (ops.foldl (apply backend) d).queue = d.queue ∧
      (ops.foldl (apply backend) d).running = d.running := by
  induction ops generalizing d with
  | nil => exact ⟨rfl, rfl⟩
  | cons op ops ih =>
      have hrest := ih (d.apply backend op)
      rw [queue_apply, running_apply] at hrest
      exact hrest

theorem queue_applied (d : Directory σ) : (d.applied backend).queue = [] :=
  (foldl_apply_keeps ..).1

theorem running_applied (d : Directory σ) : (d.applied backend).running = d.running :=
  (foldl_apply_keeps ..).2

theorem running_enqueue (d : Directory σ) (op : Op) : (d.enqueue op).running = d.running := by
  unfold enqueue
  split <;> rfl

theorem snapshot_enqueue (d : Directory σ) (op : Op) : (d.enqueue op).snapshot = d.snapshot := by
  unfold enqueue
  split <;> rfl

/-- What is queued last is applied last. -/
theorem applied_enqueue (h : d.running = true) (op : Op) :
    (d.enqueue op).applied backend = (d.applied backend).apply backend op := by
  simp only [enqueue, h, if_true, applied, List.foldl_append, List.foldl_cons, List.foldl_nil]

theorem applied_applied (d : Directory σ) :
    (d.applied backend).applied backend = d.applied backend := by
  have hqueue : (d.applied backend).queue = [] := queue_applied d
  rw [applied, hqueue, List.foldl_nil, ← hqueue]

end Worker

/-! ## The memory store -/

namespace Memory

variable {m : Memory} {record other : Record} {guid : Guid}

theorem mem_erase : other ∈ (m.erase guid).records ↔ other ∈ m.records ∧ other.guid ≠ guid := by
  simp [erase]

theorem mem_put : other ∈ (m.put record).records ↔
    other = record ∨ other ∈ m.records ∧ other.guid ≠ record.guid := by
  rw [put, List.mem_cons, mem_erase]

/-- No guid stands in the store twice. -/
def Distinct (m : Memory) : Prop := (m.records.map Record.guid).Nodup

theorem distinct_erase (h : m.Distinct) (guid : Guid) : (m.erase guid).Distinct :=
  List.Nodup.sublist (List.filter_sublist.map Record.guid) h

theorem distinct_put (h : m.Distinct) (record : Record) : (m.put record).Distinct := by
  refine List.nodup_cons.mpr ⟨?_, distinct_erase h record.guid⟩
  rw [List.mem_map]
  rintro ⟨other, hmem, heq⟩
  exact (mem_erase.mp hmem).2 heq

theorem get?_eq_some_iff (h : m.Distinct) :
    m.get? guid = some record ↔ record ∈ m.records ∧ record.guid = guid := by
  constructor
  · intro hget
    exact ⟨List.mem_of_find?_eq_some hget, by simpa using List.find?_some hget⟩
  · rintro ⟨hmem, rfl⟩
    cases hget : m.get? record.guid with
    | none => simpa using List.find?_eq_none.mp hget record hmem
    | some other =>
        have hfound : other.guid = record.guid := by simpa using List.find?_some hget
        rw [List.inj_on_of_nodup_map h (List.mem_of_find?_eq_some hget) hmem hfound]

end Memory

/-! ## Table, peer table and store together -/

/-- The directory has the records that are present, and no others, everywhere. -/
structure Holds (d : Directory Memory) (present : Record → Prop) : Prop where
  sorted : d.table.Sorted
  mem_table : ∀ record, record ∈ d.table ↔ present record
  snapshot : d.snapshot = PeerTable.encode (d.table.map Record.peer)
  distinct : d.store.Distinct
  mem_store : ∀ record, record ∈ d.store.records ↔ present record

namespace Holds

variable {d : Directory Memory} {present others : Record → Prop} {record : Record}

theorem congr (h : Holds d present) (hsame : ∀ record, others record ↔ present record) :
    Holds d others := by
  have heq : others = present := funext fun record => propext (hsame record)
  exact heq ▸ h

/-- A record comes in whose id and guid nobody has. -/
theorem add (h : Holds d present)
    (hnew : ∀ other, present other → other.id ≠ record.id ∧ other.guid ≠ record.guid) :
    Holds (d.apply Memory.backend (.add record)) fun other => other = record ∨ present other := by
  refine ⟨Table.sorted_insert h.sorted record, fun other => ?_, rfl,
    Memory.distinct_put h.distinct record, fun other => ?_⟩
  · refine (Table.mem_insert h.sorted).trans
      (or_congr_right ((and_congr_left' (h.mem_table other)).trans ?_))
    exact and_iff_left_of_imp fun hmem => (hnew other hmem).1
  · refine Memory.mem_put.trans (or_congr_right ((and_congr_left' (h.mem_store other)).trans ?_))
    exact and_iff_left_of_imp fun hmem => (hnew other hmem).2

/-- The record of an id goes out, and nobody else's. -/
theorem del (h : Holds d present) (id : SessionId)
    (hguid : ∀ record other, present record → present other → record.id = id →
      other.guid = record.guid → other = record) :
    Holds (d.apply Memory.backend (.del id)) fun other => present other ∧ other.id ≠ id := by
  rw [apply]
  split
  · rename_i hnone
    refine h.congr fun other => and_iff_left_of_imp fun hmem => ?_
    exact Table.id_ne_of_find?_eq_none hnone ((h.mem_table other).mpr hmem)
  · rename_i record hfound
    obtain ⟨hmem, hid⟩ := Table.mem_of_find? hfound
    have hpresent := (h.mem_table record).mp hmem
    refine ⟨Table.sorted_erase h.sorted id, fun other => ?_, rfl,
      Memory.distinct_erase h.distinct record.guid, fun other => ?_⟩
    · exact Table.mem_erase.trans (and_congr_left' (h.mem_table other))
    · refine Memory.mem_erase.trans ((and_congr_left' (h.mem_store other)).trans ?_)
      refine and_congr_right fun hother => not_congr ⟨fun heq => ?_, fun heq => ?_⟩
      · rw [hguid record other hpresent hother hid heq, hid]
      · rw [h.sorted.eq_of_id ((h.mem_table other).mpr hother) hmem (heq.trans hid.symm)]

end Holds

end PeerRelay.Directory
