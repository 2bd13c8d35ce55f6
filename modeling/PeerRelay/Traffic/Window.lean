import PeerRelay.Traffic.Snapshot

/-!
# Periodic traffic reports

A window remembers the counters of the last tick. Each tick moves it, and
reports the growth since the tick before, but only when a datagram was counted
in between.
-/

namespace PeerRelay.Traffic

/-- What one tick reports: the growth, and the nanoseconds it took. -/
structure Report where
  grown : Traffic
  nanoseconds : Nat
  deriving DecidableEq, Repr

def Report.rate (r : Report) : Throughput := r.grown.perSecond r.nanoseconds

/-- The counters at the last tick and the instant of it, in nanoseconds. -/
structure Window where
  last : Traffic := {}
  lastAt : Nat := 0
  deriving DecidableEq, Repr

/-- Moves the window to a new tick. A clock that ran backwards counts as one that
stood still. -/
def Window.advance (w : Window) (now : Traffic) (instant : Nat) : Window × Option Report :=
  (⟨now, instant⟩,
    if now.packets = w.last.packets then none
    else some ⟨now.since w.last, instant - w.lastAt⟩)

end PeerRelay.Traffic
