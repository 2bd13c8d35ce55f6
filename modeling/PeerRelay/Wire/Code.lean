import PeerRelay.Text.Hex

/-!
# Function and result codes

One byte of every header names the function of the frame, and the replies to
a login and to a proxy request carry one byte that says how it went. A byte
that names no function is an error; a byte that names no result reads as a
plain failure.
-/

namespace PeerRelay.Wire

/-- What a control frame is for. The first four are asked by a client; the
last two are pushed by the relay. -/
inductive Opcode where
  | heartbeat
  | login
  | proxy
  | getPeers
  | access
  | stopProxy
  deriving DecidableEq, Repr

namespace Opcode

/-- The byte that stands for the function in a header. -/
def code : Opcode → UInt8
  | heartbeat => 0
  | login => 1
  | proxy => 2
  | getPeers => 3
  | access => 4
  | stopProxy => 5

/-- The function that a byte names, if it names one. -/
def ofCode? (b : UInt8) : Option Opcode :=
  if b = 0 then some heartbeat
  else if b = 1 then some login
  else if b = 2 then some proxy
  else if b = 3 then some getPeers
  else if b = 4 then some access
  else if b = 5 then some stopProxy
  else none

/-- The short name used in logs. -/
def logName : Opcode → String
  | heartbeat => "HEARTB"
  | login => "LOGIN"
  | proxy => "PROXY"
  | getPeers => "GETPROXIES"
  | access => "ACCESS"
  | stopProxy => "STOPPROXY"

/-- The name used in error texts. -/
def title : Opcode → String
  | heartbeat => "Heartbeat"
  | login => "Login"
  | proxy => "Proxy"
  | getPeers => "GetProxies"
  | access => "Access"
  | stopProxy => "StopProxy"

@[simp] theorem ofCode?_code (op : Opcode) : ofCode? op.code = some op := by
  cases op <;> decide

theorem code_of_ofCode? {b : UInt8} {op : Opcode} (h : ofCode? b = some op) :
    b = op.code := by
  unfold ofCode? at h
  split at h
  · cases h; assumption
  split at h
  · cases h; assumption
  split at h
  · cases h; assumption
  split at h
  · cases h; assumption
  split at h
  · cases h; assumption
  split at h
  · cases h; assumption
  · cases h

end Opcode

/-- How a login or a proxy request went. -/
inductive ResultCode where
  | success
  | repeatLogin
  | notLoggedIn
  | notFound
  | forbidden
  | unavailable
  | failed
  deriving DecidableEq, Repr

namespace ResultCode

/-- The byte that stands for the result. -/
def code : ResultCode → UInt8
  | success => 0
  | repeatLogin => 1
  | notLoggedIn => 2
  | notFound => 3
  | forbidden => 4
  | unavailable => 5
  | failed => 255

/-- Reads a result byte; one that names no result counts as a failure. -/
def ofCode (b : UInt8) : ResultCode :=
  if b = 0 then success
  else if b = 1 then repeatLogin
  else if b = 2 then notLoggedIn
  else if b = 3 then notFound
  else if b = 4 then forbidden
  else if b = 5 then unavailable
  else failed

/-- The name of the result. -/
def title : ResultCode → String
  | success => "Success"
  | repeatLogin => "RepeatLogin"
  | notLoggedIn => "NotLoggedIn"
  | notFound => "NotFound"
  | forbidden => "Forbidden"
  | unavailable => "Unavailable"
  | failed => "Failed"

def isSuccess (r : ResultCode) : Bool := r == success

@[simp] theorem ofCode_code (r : ResultCode) : ofCode r.code = r := by
  cases r <;> decide

end ResultCode

end PeerRelay.Wire
