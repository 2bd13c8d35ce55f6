import PeerRelay.Relay.Sessions
import PeerRelay.Settings
import PeerRelay.Workers

/-!
# Setting up a server

A server is a pool of workers and a relay, both made from the settings.
-/

namespace PeerRelay

/-- The limits of a relay under the settings. -/
def Settings.relay (s : Settings) : Relay.Config where
  loginTimeout := 1000 * s.loginTimeoutSecs
  maxSessions := s.maxSessions
  maxChannels := s.maxChannels
  channel := s.channel

/-- A relay and the workers that serve it. -/
structure Server where
  settings : Settings
  pool : WorkerPool
  relay : Relay

namespace Server

/-- Why a server cannot be set up. -/
inductive Error where
  | pool (cause : WorkerPool.Error)
  deriving DecidableEq, Repr

def Error.message : Error → String
  | pool cause => s!"Failed to build reactor pool: {cause.message}"

/-- A server that has not begun to listen. The directory is looked after by the
first worker. -/
def ofSettings (settings : Settings) : Except Error Server :=
  match WorkerPool.ofCount settings.workerThreads with
  | .error cause => .error (.pool cause)
  | .ok pool => .ok { settings, pool := pool.next.2, relay := { config := settings.relay } }

end Server

end PeerRelay
