import PeerRelay.Wire.Code

/-!
# What can be wrong with a frame

The causes for which bytes are refused, and the text of each.
-/

namespace PeerRelay.Wire

/-- A part of a body that can be cut short. -/
inductive Field where
  | loginGuid
  | loginPrivateAddress
  | proxyIds
  | proxyGameId
  | requesterId
  | loginReply
  | proxyReply
  | accessNotice
  | stopNotice
  | peerTable
  deriving DecidableEq, Repr

/-- The words for the part in an error text. -/
def Field.name : Field → String
  | loginGuid => "LOGIN guid"
  | loginPrivateAddress => "LOGIN private address"
  | proxyIds => "PROXY ids"
  | proxyGameId => "PROXY game id"
  | requesterId => "GETPROXIES requester id"
  | loginReply => "LOGIN resp"
  | proxyReply => "PROXY resp"
  | accessNotice => "ACCESS notify"
  | stopNotice => "STOPPROXY notify"
  | peerTable => "peer table"

/-- Why bytes are not a frame, or a frame's body not a message. -/
inductive Error where
  /-- The eight bytes at hand are no header; the first two of them are skipped. -/
  | badHeader (magic1 magic2 serverVersion : UInt8)
  /-- A part needs more bytes than there are. -/
  | truncated (field : Field) (needed present : Nat)
  /-- The byte names no function. -/
  | unknownFunction (code : UInt8)
  /-- The function is one that only the relay uses. -/
  | notARequest (op : Opcode)
  deriving DecidableEq, Repr

/-- The text of an error. -/
def Error.message : Error → String
  | badHeader m1 m2 v =>
    s!"Bad header: magic {Text.hexMarked m1} {Text.hexMarked m2}, " ++
      s!"server version {Text.hexMarked v}"
  | truncated field needed present =>
    s!"Truncated {field.name}: need {needed} bytes, have {present}"
  | unknownFunction code => s!"Unknown function code {Text.hexMarked code}"
  | notARequest op => s!"Function {op.title} is not a request"

/-- A part of which at least so many bytes must be present. -/
def demand (field : Field) (needed : Nat) (bytes : Bytes) : Except Error Unit :=
  if bytes.length < needed then .error (.truncated field needed bytes.length) else .ok ()

end PeerRelay.Wire
