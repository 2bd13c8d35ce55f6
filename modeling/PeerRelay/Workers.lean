/-!
# The pool of workers

Jobs are handed to a fixed number of workers in turn. A job that fails is torn
down alone: its worker and all other jobs go on. Once the pool is stopped it
runs no more jobs.
-/

namespace PeerRelay

/-- Why there is no pool. -/
inductive WorkerPool.Error where
  | noWorkers
  deriving DecidableEq, Repr

def WorkerPool.Error.message : WorkerPool.Error → String
  | noWorkers => "Worker count must be > 0"

/-- A job and how it will end. -/
structure Job where
  fails : Bool
  deriving DecidableEq, Repr

/-- Workers, whose turn it is, and what they were given to do. -/
structure WorkerPool where
  workers : Nat
  workers_pos : 0 < workers
  cursor : Nat := 0
  /-- The jobs with their workers, oldest first. -/
  jobs : List (Nat × Job) := []
  active : Bool := true

namespace WorkerPool

def ofCount (workers : Nat) : Except Error WorkerPool :=
  if h : 0 < workers then .ok { workers, workers_pos := h } else .error .noWorkers

/-- The worker whose turn it is, and the pool with the turn passed on. -/
def next (p : WorkerPool) : Nat × WorkerPool :=
  (p.cursor % p.workers, { p with cursor := p.cursor + 1 })

/-- Gives a job to the next worker. -/
def spawn (p : WorkerPool) (job : Job) : WorkerPool :=
  let (worker, p) := p.next
  { p with jobs := p.jobs ++ [(worker, job)] }

def stop (p : WorkerPool) : WorkerPool := { p with active := false }

/-- The jobs that run, with their workers: all, or none when the pool was stopped. -/
def run (p : WorkerPool) : List (Nat × Job) := if p.active then p.jobs else []

/-- The name of a worker's thread. -/
def threadName (worker : Nat) : String := s!"natproxy-reactor-{worker}"

end WorkerPool

end PeerRelay
