import PeerRelay.Relay.State

/-!
# Writing to clients

What is queued for a client is written by a task of its own that takes turns of its own. In
a turn it writes the oldest frame that is not written yet. Only when there is none, and the
session has ended, does it close the stream; what comes after that is dropped.
-/

namespace PeerRelay

/-- The task that writes what is queued for a client. Nothing is dropped as long as events
happen one after another; calls that overlap may queue a frame when the stream is closed. -/
structure Writer where
  /-- What is not written yet, oldest first. -/
  queue : List Push := []
  /-- Whether the session has ended. -/
  stopping : Bool := false
  /-- Whether the stream is closed. -/
  closed : Bool := false
  /-- Everything that was written. -/
  written : Bytes := []

namespace Writer

/-- Queues frames; when the stream is closed they are dropped. -/
def accept (pushes : List Push) (w : Writer) : Writer :=
  if w.closed then w else { w with queue := w.queue ++ pushes }

/-- Notes that the session has ended. -/
def stop (w : Writer) : Writer := { w with stopping := true }

/-- Takes a turn. -/
def turn (w : Writer) : Writer :=
  if w.closed then w
  else
    match w.queue with
    | p :: rest => { w with queue := rest, written := w.written ++ p.encode }
    | [] => { w with closed := w.stopping }

/-- Takes in what a step of the relay queued for the session, and whether the session has ended. -/
def watch (s : SessionRef) (r r' : Relay) (w : Writer) : Writer :=
  let w := w.accept ((r'.session s).outbox.drop (r.session s).outbox.length)
  if s < r'.sessions.length && !(r'.session s).running then w.stop else w

/-- Watches the relay go through states and takes so many turns after each of them. -/
def follow (s : SessionRef) (w : Writer) (r : Relay) : List (Relay × Nat) → Writer
  | [] => w
  | (r', turns) :: rest => follow s (turns.repeat turn (w.watch s r r')) r' rest

end Writer

end PeerRelay
