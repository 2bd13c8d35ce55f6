import PeerRelay.Wire.Response

/-!
# A client of the control protocol

The other side of a control connection: it collects what the relay sends and
takes one response at a time from it.
-/

namespace PeerRelay

/-- What a client has been sent and has not looked at yet. -/
structure Client where
  buffer : Bytes := []
  /-- Whether the relay has closed the connection. -/
  closed : Bool := false
  deriving DecidableEq, Repr

namespace Client

/-- What a client gets when it asks for the next response. -/
inductive Answer where
  | response (r : Response)
  /-- The bytes at hand are no frame, or no response. -/
  | malformed (e : Wire.Error)
  | endOfStream
  /-- More bytes are needed. -/
  | pending
  deriving DecidableEq, Repr

def feed (c : Client) (data : Bytes) : Client := { c with buffer := c.buffer ++ data }

def close (c : Client) : Client := { c with closed := true }

/-- Takes the next response. A skip in the stream is reported each time it happens. -/
def next (c : Client) : Answer × Client :=
  match Wire.Frame.next c.buffer with
  | none => (if c.closed then .endOfStream else .pending, c)
  | some (.skip m1 m2 v, rest) => (.malformed (.badHeader m1 m2 v), { c with buffer := rest })
  | some (.frame frame, rest) =>
    (match Response.decode frame with
      | .ok r => .response r
      | .error e => .malformed e,
      { c with buffer := rest })

end Client

end PeerRelay
