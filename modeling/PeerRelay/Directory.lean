import PeerRelay.Wire.PeerTable

/-!
# The directory of discoverable sessions

Additions and deletions are queued and applied later, in order, by one worker.
The worker keeps its records sorted by session id, publishes the peer table of
the first of them after every change, and then writes the change through to a
backing store. What the store answers never holds the table back.
-/

namespace PeerRelay

/-- A discoverable session as the directory knows it. -/
structure Record where
  id : SessionId
  addr : Ipv4
  guid : Guid
  deriving DecidableEq, Repr

def Record.peer (r : Record) : Peer := ⟨r.id, r.addr⟩

namespace Directory

/-- Why the directory, or the store behind it, could not do as asked. -/
inductive Error where
  | store (reason : String)
  | closed
  deriving DecidableEq, Repr

def Error.message : Error → String
  | store reason => s!"Store error: {reason}"
  | closed => "Directory worker is gone"

/-- A store that the directory writes through to, as a way to change its state. -/
structure Backend (σ : Type) where
  put : Record → σ → Except Error Unit × σ
  remove : Record → σ → Except Error Unit × σ

/-- Records sorted by id, one for each id. -/
abbrev Table := List Record

namespace Table

/-- Puts a record in its place; an older record of the same id is replaced. -/
def insert (record : Record) : Table → Table
  | [] => [record]
  | r :: rest =>
    if record.id < r.id then record :: r :: rest
    else if record.id = r.id then record :: rest
    else r :: insert record rest

def find? (table : Table) (id : SessionId) : Option Record :=
  List.find? (fun r => decide (r.id = id)) table

def erase (table : Table) (id : SessionId) : Table :=
  table.filter (fun r => decide (r.id ≠ id))

end Table

/-- A change that waits for the worker. -/
inductive Op where
  | add (record : Record)
  | del (id : SessionId)
  deriving DecidableEq, Repr

end Directory

/-- The directory over a store with states in a given type. -/
structure Directory (σ : Type) where
  /-- The changes not yet applied, oldest first. -/
  queue : List Directory.Op := []
  /-- What the worker has on record. -/
  table : Directory.Table := []
  /-- The peer table last published. -/
  snapshot : Bytes := PeerTable.empty
  store : σ
  /-- Whether the worker is there to apply changes. -/
  running : Bool := true

namespace Directory

variable {σ : Type}

/-- The entries of the table last published. -/
def size (d : Directory σ) : Nat := PeerTable.count d.snapshot

def isEmpty (d : Directory σ) : Bool := d.size == 0

/-- Queues a change; without a worker it is dropped. -/
def enqueue (op : Op) (d : Directory σ) : Directory σ :=
  if d.running then { d with queue := d.queue ++ [op] } else d

/-- Publishes the records of a new table. -/
def publish (table : Table) (d : Directory σ) : Directory σ :=
  { d with table, snapshot := PeerTable.encode (table.map Record.peer) }

/-- Applies one change. Deleting an unknown id does nothing at all. -/
def apply (backend : Backend σ) (d : Directory σ) : Op → Directory σ
  | .add record =>
    let d := d.publish (d.table.insert record)
    { d with store := (backend.put record d.store).2 }
  | .del id =>
    match d.table.find? id with
    | none => d
    | some record =>
      let d := d.publish (d.table.erase id)
      { d with store := (backend.remove record d.store).2 }

/-- Lets the worker apply everything that is queued. -/
def sync (backend : Backend σ) (d : Directory σ) : Except Error Unit × Directory σ :=
  if d.running then
    (.ok (), d.queue.foldl (apply backend) { d with queue := [] })
  else (.error .closed, d)

/-- Takes the worker away, and with it whatever it had not applied. -/
def kill (d : Directory σ) : Directory σ := { d with running := false, queue := [] }

/-- A store in memory: one record for each guid, the latest written. -/
structure Memory where
  records : List Record := []
  deriving DecidableEq, Repr

namespace Memory

def get? (m : Memory) (guid : Guid) : Option Record :=
  m.records.find? (fun r => decide (r.guid = guid))

def size (m : Memory) : Nat := m.records.length

def erase (m : Memory) (guid : Guid) : Memory :=
  ⟨m.records.filter (fun r => decide (r.guid ≠ guid))⟩

/-- Writes a record under its guid, over any older one. -/
def put (record : Record) (m : Memory) : Memory :=
  ⟨record :: (m.erase record.guid).records⟩

/-- The memory store never refuses. Removing a record frees its guid, whichever
record stands there. -/
def backend : Backend Memory where
  put record m := (.ok (), m.put record)
  remove record m := (.ok (), m.erase record.guid)

end Memory

/-- A store that refuses every call and counts them. -/
def refusing (reason : String) : Backend Nat where
  put _ calls := (.error (.store reason), calls + 1)
  remove _ calls := (.error (.store reason), calls + 1)

end Directory

end PeerRelay
