/-!
# What a session may do

Every listener gives its sessions a role. A session may ask for channels unless
it is a pure server, and others may find it unless it is a pure client.
-/

namespace PeerRelay

/-- The part that a session plays. -/
inductive Role where
  | client
  | server
  | either
  deriving DecidableEq, Repr

namespace Role

/-- Whether a session may ask for channels and for the peer table. -/
def mayOriginate (role : Role) : Bool := role != server

/-- Whether a session is listed for others to reach. -/
def isDiscoverable (role : Role) : Bool := role != client

def name : Role → String
  | client => "client"
  | server => "server"
  | either => "either"

/-- The role with the very name. -/
def ofName? (text : String) : Option Role :=
  [client, server, either].find? (fun role => role.name == text)

@[simp] theorem ofName?_name (role : Role) : ofName? role.name = some role := by
  cases role <;> decide

end Role

end PeerRelay
