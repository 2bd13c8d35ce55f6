import PeerRelay.Pool
import PeerRelay.Proofs.Directory.History
import PeerRelay.Relay.Event

/-!
# Whether the store mirrors the table

The table goes by ids and the store by guids. An addition brings the two together over its guid.
They part over a guid in two ways, and in no other: when a record is deleted while another one
under the same guid stays in the table, which the store then has no longer, and when the id of
the record in the store is given to another guid. Neither happens as long as no two records ever
share a guid or an id. Sessions do share a guid for a moment: one that ends lets go of its guid
before it tells the directory, and its client may be back and be told to the directory first.
-/

namespace PeerRelay.Directory

/-! ## The store, guid by guid -/

namespace Memory

variable {m : Memory} {record : Record}

theorem guid_of_get? {guid : Guid} (h : m.get? guid = some record) : record.guid = guid := by
  simpa using List.find?_some h

theorem get?_erase (m : Memory) (erased guid : Guid) :
    (m.erase erased).get? guid = if erased = guid then none else m.get? guid := by
  rw [erase, get?, List.find?_filter]
  split
  · rename_i h
    subst h
    exact List.find?_eq_none.mpr fun r _ => by simp
  · rename_i h
    refine congrArg (List.find? · m.records) (funext fun r => ?_)
    by_cases hr : r.guid = guid
    · simp [hr, Ne.symm h]
    · simp [hr]

theorem get?_put (m : Memory) (record : Record) (guid : Guid) :
    (m.put record).get? guid = if record.guid = guid then some record else m.get? guid := by
  rw [put, get?, List.find?_cons]
  by_cases h : record.guid = guid
  · simp [h]
  · rw [decide_eq_false h, if_neg h]
    exact (get?_erase m record.guid guid).trans (if_neg h)

end Memory

/-! ## One change -/

variable {d : Directory Memory} {guid : Guid}

/-- The store has a record under a guid just if the table has one, and it is one of those. -/
structure Mirrored (d : Directory Memory) (guid : Guid) : Prop where
  present : (∃ record, d.store.get? guid = some record) ↔ ∃ record ∈ d.table, record.guid = guid
  shared : ∀ record, d.store.get? guid = some record → record ∈ d.table

/-- A change by which the store and the table part over a guid. -/
inductive Parts (d : Directory Memory) (guid : Guid) : Op → Prop where
  /-- A record goes while another one under the guid stays. -/
  | bereaves {record other : Record} {id : SessionId} (hrecord : record ∈ d.table)
      (hid : record.id = id) (hguid : record.guid = guid) (hother : other ∈ d.table)
      (hsame : other.guid = guid) (hne : other.id ≠ id) : Parts d guid (.del id)
  /-- The id of the record in the store goes to another guid. -/
  | replaces {record stored : Record} (hstored : d.store.get? guid = some stored)
      (hid : stored.id = record.id) (hguid : record.guid ≠ guid) : Parts d guid (.add record)

theorem mirrored_of_get?_eq_none (h : d.store.get? guid = none) :
    Mirrored d guid ↔ ∀ record ∈ d.table, record.guid ≠ guid := by
  constructor
  · intro hm record hrecord hguid
    obtain ⟨other, hother⟩ := hm.present.mpr ⟨record, hrecord, hguid⟩
    cases h.symm.trans hother
  · intro hall
    refine ⟨iff_of_false ?_ ?_, fun record hrecord => ?_⟩
    · rintro ⟨record, hrecord⟩
      cases h.symm.trans hrecord
    · rintro ⟨record, hrecord, hguid⟩
      exact hall record hrecord hguid
    · cases h.symm.trans hrecord

theorem mirrored_of_get?_eq_some {record : Record} (h : d.store.get? guid = some record) :
    Mirrored d guid ↔ record ∈ d.table := by
  constructor
  · exact fun hm => hm.shared record h
  · intro hmem
    refine ⟨iff_of_true ⟨record, h⟩ ⟨record, hmem, Memory.guid_of_get? h⟩, fun other hother => ?_⟩
    rw [h] at hother
    cases hother
    exact hmem

theorem mem_table_add (hsorted : d.table.Sorted) {record other : Record} :
    other ∈ (d.apply Memory.backend (.add record)).table ↔
      other = record ∨ other ∈ d.table ∧ other.id ≠ record.id :=
  Table.mem_insert hsorted

theorem get?_store_add (d : Directory Memory) (record : Record) (guid : Guid) :
    (d.apply Memory.backend (.add record)).store.get? guid =
      if record.guid = guid then some record else d.store.get? guid :=
  Memory.get?_put ..

theorem mem_table_del {id : SessionId} {other : Record} :
    other ∈ (d.apply Memory.backend (.del id)).table ↔ other ∈ d.table ∧ other.id ≠ id := by
  rw [apply]
  split
  · rename_i hfind
    exact ⟨fun h => ⟨h, Table.id_ne_of_find?_eq_none hfind h⟩, And.left⟩
  · exact Table.mem_erase

theorem get?_store_del {id : SessionId} {record : Record} (h : d.table.find? id = some record)
    (guid : Guid) : (d.apply Memory.backend (.del id)).store.get? guid =
      if record.guid = guid then none else d.store.get? guid := by
  rw [apply, h]
  exact Memory.get?_erase ..

/-- An addition mirrors its own guid, and leaves every other one mirrored unless it replaces the
record that the store has under it. -/
theorem Mirrored.add_iff (h : Mirrored d guid) (hsorted : d.table.Sorted) (record : Record) :
    Mirrored (d.apply Memory.backend (.add record)) guid ↔ ¬ Parts d guid (.add record) := by
  have hstore := get?_store_add d record guid
  by_cases hguid : record.guid = guid
  · rw [if_pos hguid] at hstore
    refine iff_of_true ?_ fun hparts => ?_
    · exact (mirrored_of_get?_eq_some hstore).mpr ((mem_table_add hsorted).mpr (.inl rfl))
    · cases hparts with
      | replaces _ _ hne => exact hne hguid
  · rw [if_neg hguid] at hstore
    cases hget : d.store.get? guid with
    | none =>
        rw [hget] at hstore
        refine iff_of_true ((mirrored_of_get?_eq_none hstore).mpr fun other hother => ?_) ?_
        · rcases (mem_table_add hsorted).mp hother with rfl | ⟨hmem, -⟩
          · exact hguid
          · exact (mirrored_of_get?_eq_none hget).mp h other hmem
        · intro hparts
          cases hparts with
          | replaces hstored _ _ => cases hget.symm.trans hstored
    | some stored =>
        rw [hget] at hstore
        have hne : stored ≠ record := fun heq => hguid (heq ▸ Memory.guid_of_get? hget)
        rw [mirrored_of_get?_eq_some hstore, mem_table_add hsorted, or_iff_right hne,
          and_iff_right (h.shared stored hget)]
        constructor
        · intro hkept hparts
          cases hparts with
          | replaces hstored hid _ =>
              cases hget.symm.trans hstored
              exact hkept hid
        · exact fun hparts hid => hparts (.replaces hget hid hguid)

/-- A record that goes leaves its own guid mirrored if it was the only one under it. -/
theorem mirrored_del_iff_of_guid {id : SessionId} {record : Record}
    (hfind : d.table.find? id = some record) (hguid : record.guid = guid) :
    Mirrored (d.apply Memory.backend (.del id)) guid ↔ ¬ Parts d guid (.del id) := by
  have hstore := get?_store_del hfind guid
  rw [if_pos hguid] at hstore
  rw [mirrored_of_get?_eq_none hstore]
  obtain ⟨hrecord, hid⟩ := Table.mem_of_find? hfind
  constructor
  · intro hnone hparts
    cases hparts with
    | bereaves _ _ _ hother hsame hne => exact hnone _ (mem_table_del.mpr ⟨hother, hne⟩) hsame
  · intro hparts other hother hsame
    obtain ⟨hmem, hne⟩ := mem_table_del.mp hother
    exact hparts (.bereaves hrecord hid hguid hmem hsame hne)

/-- A record that goes leaves every other guid mirrored. -/
theorem Mirrored.del_of_guid_ne (h : Mirrored d guid) (hsorted : d.table.Sorted) {id : SessionId}
    {record : Record} (hfind : d.table.find? id = some record) (hguid : record.guid ≠ guid) :
    Mirrored (d.apply Memory.backend (.del id)) guid := by
  have hstore := get?_store_del hfind guid
  rw [if_neg hguid] at hstore
  obtain ⟨hrecord, hid⟩ := Table.mem_of_find? hfind
  cases hget : d.store.get? guid with
  | none =>
      rw [hget] at hstore
      refine (mirrored_of_get?_eq_none hstore).mpr fun other hother => ?_
      exact (mirrored_of_get?_eq_none hget).mp h other (mem_table_del.mp hother).1
  | some stored =>
      rw [hget] at hstore
      have hmem := h.shared stored hget
      refine (mirrored_of_get?_eq_some hstore).mpr (mem_table_del.mpr ⟨hmem, fun hsame => ?_⟩)
      have heq := hsorted.eq_of_id hmem hrecord (hsame.trans hid.symm)
      exact hguid (heq ▸ Memory.guid_of_get? hget)

/-- A deletion leaves every guid mirrored unless it takes away one of several records under it. -/
theorem Mirrored.del_iff (h : Mirrored d guid) (hsorted : d.table.Sorted) (id : SessionId) :
    Mirrored (d.apply Memory.backend (.del id)) guid ↔ ¬ Parts d guid (.del id) := by
  cases hfind : d.table.find? id with
  | none =>
      have hsame : d.apply Memory.backend (.del id) = d := by rw [apply, hfind]
      rw [hsame]
      refine iff_of_true h fun hparts => ?_
      cases hparts with
      | bereaves hmem hid => exact Table.id_ne_of_find?_eq_none hfind hmem hid
  | some record =>
      by_cases hguid : record.guid = guid
      · exact mirrored_del_iff_of_guid hfind hguid
      · refine iff_of_true (h.del_of_guid_ne hsorted hfind hguid) fun hparts => ?_
        obtain ⟨hrecord, hid⟩ := Table.mem_of_find? hfind
        cases hparts with
        | bereaves hmem hid' hown =>
            exact hguid (hsorted.eq_of_id hmem hrecord (hid'.trans hid.symm) ▸ hown)

theorem Mirrored.apply_iff (h : Mirrored d guid) (hsorted : d.table.Sorted) (op : Op) :
    Mirrored (d.apply Memory.backend op) guid ↔ ¬ Parts d guid op := by
  cases op with
  | add record => exact h.add_iff hsorted record
  | del id => exact h.del_iff hsorted id

/-! ## Histories -/

/-- A new directory over a memory store, when its worker is through with what was handed over. -/
def synced (turns : List Turn) : Directory Memory :=
  ((after Memory.backend {} turns).sync Memory.backend).2

theorem synced_eq (turns : List Turn) : synced turns = having Memory.backend {} (handed turns) := by
  rw [synced, sync_after]

theorem sorted_synced (turns : List Turn) : (synced turns).table.Sorted := by
  rw [synced_eq]
  exact (shows_having ..).listed.sorted

theorem synced_snoc_hand (turns : List Turn) (op : Op) :
    synced (turns ++ [.hand op]) = (synced turns).apply Memory.backend op := by
  rw [synced_eq, synced_eq, handed_snoc]
  exact having_snoc ..

theorem synced_snoc_work (turns : List Turn) : synced (turns ++ [.work]) = synced turns := by
  rw [synced_eq, synced_eq, handed_snoc]
  exact congrArg _ (List.append_nil _)

theorem mirrored_synced_nil (guid : Guid) : Mirrored (synced []) guid :=
  (mirrored_of_get?_eq_none rfl).mpr fun _ h => (List.not_mem_nil h).elim

/-- A history in which the store and the table never part over a guid. -/
def NeverParts (turns : List Turn) (guid : Guid) : Prop :=
  ∀ before op, before ++ [.hand op] <+: turns → ¬ Parts (synced before) guid op

/-- A history in which a record is only added when nobody else in the table has its id or its
guid. -/
def Uncontested (turns : List Turn) : Prop :=
  ∀ before record, before ++ [.hand (.add record)] <+: turns →
    ∀ other ∈ (synced before).table, other.guid = record.guid ↔ other.id = record.id

/-- What holds wherever a change of one kind is made, in a history that is one turn longer. -/
theorem forall_change_snoc {α : Type} {f : α → Turn} {P : List Turn → α → Prop}
    {turns : List Turn} {t : Turn} :
    (∀ before a, before ++ [f a] <+: turns ++ [t] → P before a) ↔
      (∀ before a, before ++ [f a] <+: turns → P before a) ∧ ∀ a, t = f a → P turns a := by
  constructor
  · intro h
    refine ⟨fun before a hpre => h before a (hpre.trans (List.prefix_append ..)), ?_⟩
    rintro a rfl
    exact h turns a (List.prefix_refl _)
  · rintro ⟨hold, hnew⟩ before a hpre
    rcases List.prefix_concat_iff.mp hpre with heq | hpre
    · obtain ⟨rfl, ht⟩ := List.append_inj' heq rfl
      exact hnew a (List.singleton_inj.mp ht).symm
    · exact hold before a hpre

theorem neverParts_snoc {turns : List Turn} {t : Turn} :
    NeverParts (turns ++ [t]) guid ↔
      NeverParts turns guid ∧ ∀ op, t = .hand op → ¬ Parts (synced turns) guid op :=
  forall_change_snoc

theorem uncontested_snoc {turns : List Turn} {t : Turn} :
    Uncontested (turns ++ [t]) ↔ Uncontested turns ∧ ∀ record, t = .hand (.add record) →
      ∀ other ∈ (synced turns).table, other.guid = record.guid ↔ other.id = record.id :=
  forall_change_snoc (f := fun record => .hand (.add record))

/-- The store mirrors the table all along just if they never part. -/
theorem mirrored_throughout_iff (turns : List Turn) (guid : Guid) :
    (∀ before, before <+: turns → Mirrored (synced before) guid) ↔ NeverParts turns guid := by
  induction turns using List.reverseRecOn with
  | nil =>
      refine iff_of_true (fun before hpre => ?_) fun before op hpre => ?_
      · rw [List.prefix_nil.mp hpre]
        exact mirrored_synced_nil guid
      · exact absurd (List.prefix_nil.mp hpre) (List.append_ne_nil_of_right_ne_nil _ nofun)
  | append_singleton turns t ih =>
      have hsplit : (∀ before, before <+: turns ++ [t] → Mirrored (synced before) guid) ↔
          (∀ before, before <+: turns → Mirrored (synced before) guid) ∧
            Mirrored (synced (turns ++ [t])) guid := by
        simp only [List.prefix_concat_iff, or_imp, forall_and, forall_eq]
        exact and_comm
      rw [hsplit, neverParts_snoc, ← ih]
      refine and_congr_right fun hbefore => ?_
      have hmirrored := hbefore turns (List.prefix_refl _)
      cases t with
      | hand op =>
          rw [synced_snoc_hand, hmirrored.apply_iff (sorted_synced turns)]
          exact ⟨fun h op' heq => Turn.hand.inj heq ▸ h, fun h => h op rfl⟩
      | work =>
          rw [synced_snoc_work]
          exact iff_of_true hmirrored nofun

/-- In a table no guid stands twice. -/
def Table.Separate (table : Table) : Prop :=
  ∀ a ∈ table, ∀ b ∈ table, a.guid = b.guid → a = b

theorem Table.Separate.insert {table : Table} {record : Record} (h : table.Separate)
    (hsorted : table.Sorted)
    (hnew : ∀ other ∈ table, other.guid = record.guid ↔ other.id = record.id) :
    (table.insert record).Separate := by
  intro a ha b hb hab
  rcases (mem_insert hsorted).mp ha with ha | ⟨ha, haid⟩
  · rcases (mem_insert hsorted).mp hb with hb | ⟨hb, hbid⟩
    · rw [ha, hb]
    · exact absurd ((hnew b hb).mp (hab.symm.trans (congrArg Record.guid ha))) hbid
  · rcases (mem_insert hsorted).mp hb with hb | ⟨hb, -⟩
    · exact absurd ((hnew a ha).mp (hab.trans (congrArg Record.guid hb))) haid
    · exact h a ha b hb hab

/-- Where nothing is contested no guid stands in the table twice, and the store mirrors it. -/
theorem Uncontested.mirrored {turns : List Turn} (h : Uncontested turns) :
    (synced turns).table.Separate ∧ ∀ guid, Mirrored (synced turns) guid := by
  induction turns using List.reverseRecOn with
  | nil => exact ⟨fun _ ha => (List.not_mem_nil ha).elim, mirrored_synced_nil⟩
  | append_singleton turns t ih =>
      obtain ⟨hbefore, hadded⟩ := uncontested_snoc.mp h
      obtain ⟨hseparate, hmirrored⟩ := ih hbefore
      have hsorted := sorted_synced turns
      cases t with
      | work =>
          rw [synced_snoc_work]
          exact ⟨hseparate, hmirrored⟩
      | hand op =>
          rw [synced_snoc_hand]
          cases op with
          | add record =>
              have hnew := hadded record rfl
              refine ⟨hseparate.insert hsorted hnew, fun guid => ?_⟩
              refine ((hmirrored guid).apply_iff hsorted _).mpr fun hparts => ?_
              cases hparts with
              | replaces hstored hid hne =>
                  have hmem := (hmirrored guid).shared _ hstored
                  exact hne (((hnew _ hmem).mpr hid).symm.trans (Memory.guid_of_get? hstored))
          | del id =>
              refine ⟨fun a ha b hb => ?_, fun guid => ?_⟩
              · exact hseparate a (mem_table_del.mp ha).1 b (mem_table_del.mp hb).1
              · refine ((hmirrored guid).apply_iff hsorted _).mpr fun hparts => ?_
                cases hparts with
                | bereaves hrecord hid hguid hother hsame hne =>
                    have heq := hseparate _ hother _ hrecord (hsame.trans hguid.symm)
                    exact hne (heq ▸ hid)

/-- Whatever is handed to the directory, and whenever its worker gets to it: the store mirrors the
table over a guid all along just if they never part over it by one of the two changes that can do
that, and where nothing is contested it mirrors all of the table. -/
theorem store_mirrors_table (turns : List Turn) :
    (∀ guid, (∀ before, before <+: turns → Mirrored (synced before) guid) ↔
      NeverParts turns guid) ∧
    (Uncontested turns → ∀ guid, Mirrored (synced turns) guid) :=
  ⟨mirrored_throughout_iff turns, fun h => h.mirrored.2⟩

/-- A client ends, and is back when the directory has been told so. Another one stays. -/
def returned : List Turn :=
  [.hand (.add ⟨1000, ⟨192, 0, 2, 1⟩, ⟨[65]⟩⟩), .hand (.add ⟨1001, ⟨192, 0, 2, 2⟩, ⟨[66]⟩⟩),
    .work, .hand (.del 1000), .hand (.add ⟨1002, ⟨192, 0, 2, 1⟩, ⟨[65]⟩⟩)]

theorem mirrored_returned : Uncontested returned ∧ NeverParts returned ⟨[65]⟩ ∧
    ∀ guid, Mirrored (synced returned) guid := by
  have huncontested : Uncontested returned := by
    change Uncontested ([] ++ [_] ++ [_] ++ [_] ++ [_] ++ [_])
    simp only [uncontested_snoc]
    refine ⟨⟨⟨⟨⟨fun _ _ hpre => by simp at hpre, ?_⟩, ?_⟩, nofun⟩, nofun⟩, ?_⟩
    all_goals rintro _ ⟨⟩; decide
  refine ⟨huncontested, ?_, (store_mirrors_table returned).2 huncontested⟩
  refine ((store_mirrors_table returned).1 _).mp fun before hbefore => ?_
  exact (store_mirrors_table before).2
    (fun first record hpre => huncontested first record (hpre.trans hbefore)) _
/-- A client is logged in on one connection and has opened another. -/
def returning : Relay :=
  let client (port : UInt16) : Relay.Event :=
    .connect .either ⟨.v4 ⟨192, 0, 2, 1⟩, port, 0⟩ ⟨.v4 .unspecified, 8800, 0⟩
  .after {} [client 4000, .bytes 0 (Request.encode (.login ⟨[65]⟩ .unspecified)), client 4001]

/-- The first connection ends, and the client logs in on the other as soon as its guid is free. -/
def overtaken : Pool Relay Unit :=
  (Pool.start returning [(Relay.Event.disconnect 0).op,
    (Relay.Event.bytes 1 (Request.encode (.login ⟨[65]⟩ .unspecified))).op]).play
      (List.replicate 7 0 ++ List.replicate 40 1 ++ List.replicate 20 0)

/-- The directory is told of the new login before it is told of the end of the old one. With the
old record the store then loses the new one, whose session goes on. -/
theorem successor_lost :
    overtaken.idle ∧ (overtaken.state.session 1).loggedIn = true ∧
      overtaken.state.directory.queue = [.add ⟨1000, ⟨192, 0, 2, 1⟩, ⟨[65]⟩⟩,
        .add ⟨1001, ⟨192, 0, 2, 1⟩, ⟨[65]⟩⟩, .del 1000] ∧
      (synced (overtaken.state.directory.queue.map .hand)).table =
        [⟨1001, ⟨192, 0, 2, 1⟩, ⟨[65]⟩⟩] ∧
      (synced (overtaken.state.directory.queue.map .hand)).store.get? ⟨[65]⟩ = none ∧
      ¬ Mirrored (synced (overtaken.state.directory.queue.map .hand)) ⟨[65]⟩ := by
  have hqueue : overtaken.state.directory.queue = [.add ⟨1000, ⟨192, 0, 2, 1⟩, ⟨[65]⟩⟩,
      .add ⟨1001, ⟨192, 0, 2, 1⟩, ⟨[65]⟩⟩, .del 1000] := by decide +kernel
  rw [hqueue]
  have hnone : (synced ([.add ⟨1000, ⟨192, 0, 2, 1⟩, ⟨[65]⟩⟩,
      .add ⟨1001, ⟨192, 0, 2, 1⟩, ⟨[65]⟩⟩, .del 1000].map .hand)).store.get? ⟨[65]⟩ = none := by
    decide
  refine ⟨by decide +kernel, by decide +kernel, rfl, by decide, hnone, fun hmirrored => ?_⟩
  exact (mirrored_of_get?_eq_none hnone).mp hmirrored ⟨1001, ⟨192, 0, 2, 1⟩, ⟨[65]⟩⟩
    (by decide) rfl

end PeerRelay.Directory
