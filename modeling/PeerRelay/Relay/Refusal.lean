import PeerRelay.Wire.Request

/-!
# Why the relay refuses

The causes for which a login or a channel is refused, their texts, and the
result that the client is told.
-/

namespace PeerRelay

/-- Why a login or a channel was refused. -/
inductive Refusal where
  | duplicateGuid (guid : Guid)
  | idTaken (id : SessionId)
  | notFound (id : SessionId)
  | selfProxy
  | channelLimit (limit : Nat)
  /-- One of a channel's sessions has ended and is gone. -/
  | sessionGone (id : SessionId)
  /-- One of a channel's sessions does not take the channel. -/
  | registration (channel : ChannelId) (session : SessionId)
  deriving DecidableEq, Repr

namespace Refusal

def message : Refusal → String
  | duplicateGuid guid => s!"Guid {guid.text} is already logged in"
  | idTaken id => s!"Session id {id} is already registered"
  | notFound id => s!"Session {id} not found"
  | selfProxy => "Session cannot proxy to itself"
  | channelLimit limit => s!"Channel limit of {limit} reached"
  | sessionGone id => s!"Session {id} is gone"
  | registration channel session => s!"Session {session} refused channel {channel}"

/-- What the client is told. -/
def result : Refusal → Wire.ResultCode
  | notFound _ => .notFound
  | selfProxy => .forbidden
  | channelLimit _ => .unavailable
  | _ => .failed

end Refusal

end PeerRelay
