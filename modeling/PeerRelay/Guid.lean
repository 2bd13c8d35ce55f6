import PeerRelay.Text.Utf8
import PeerRelay.Text.Escape

/-!
# Login identities

A client names itself by a run of bytes of its own choice. Two guids are equal
only when their bytes are; no text decoding is applied. A guid that is UTF-8 is
shown as text, any other with its bytes escaped.
-/

namespace PeerRelay

/-- The identity that a client logs in with. -/
structure Guid where
  bytes : Bytes := []
  deriving DecidableEq, Repr

namespace Guid

def length (g : Guid) : Nat := g.bytes.length

def isEmpty (g : Guid) : Bool := g.bytes.isEmpty

/-- The text of a guid in logs and answers. -/
def text (g : Guid) : String :=
  (Text.Utf8.decode? g.bytes).getD (Text.escape g.bytes)

/-- Guids in the order of their bytes; a guid comes before its extensions. -/
def ble (a b : Guid) : Bool := go a.bytes b.bytes
where
  go : Bytes → Bytes → Bool
    | [], _ => true
    | _ :: _, [] => false
    | x :: xs, y :: ys => x < y || (x == y && go xs ys)

/-- The guids in the order of their bytes. -/
def sort (guids : List Guid) : List Guid := guids.mergeSort ble

end Guid

end PeerRelay
