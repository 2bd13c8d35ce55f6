import PeerRelay.Settings
import PeerRelay.Toml.Document

/-!
# What a settings file is written in

A format reads a text as a document, which has values under its keys, and says what a value
stands for and as what value something is written. Nothing else is known of a document, so that
settings can come from any format. The one in use is TOML.
-/

namespace PeerRelay.Settings

/-- A way to write documents. -/
structure Format where
  /-- What stands under a key. -/
  Value : Type
  parse : String → Option (List (String × Value))
  count? : Value → Option Nat
  text? : Value → Option String
  addr? : Value → Option SocketAddr
  listeners? : Value → Option (List Listener)
  ofCount : Nat → Value
  ofText : String → Value
  ofAddr : SocketAddr → Value
  ofListeners : List Listener → Value
  /-- The largest number that a document can hold. -/
  countMax : Nat

/-! ## TOML -/

open Toml (Value)

/-- A string, or a date or time as its text. -/
def stringOf? : Value → Option String
  | .string text => some text
  | .moment m => some (String.ofList m.text)
  | _ => none

/-- A number that is not negative. -/
def countOf? : Value → Option Nat
  | .integer n => if 0 ≤ n then some n.toNat else none
  | _ => none

def addrOf? (v : Value) : Option SocketAddr := (stringOf? v).bind SocketAddr.ofText?

/-- A role by its name, which may also be the one key of a table without content. -/
def roleOf? : Value → Option Role
  | .string text => Role.ofName? text
  | .table [(name, .table [])] => Role.ofName? name
  | .table [(name, .array [])] => Role.ofName? name
  | _ => none

/-- A listener as a table, or as an array of an address and a role. -/
def listenerOf? : Value → Option Listener
  | .table entries => do
    let addr ← (entries.lookup "addr").bind addrOf?
    match entries.lookup "session_type" with
    | none => return { addr }
    | some v => return { addr, role := ← roleOf? v }
  | .array [addr] => do return { addr := ← addrOf? addr }
  | .array [addr, role] => do return { addr := ← addrOf? addr, role := ← roleOf? role }
  | _ => none

def listenersOf? : Value → Option (List Listener)
  | .array elements => elements.mapM listenerOf?
  | _ => none

/-- A listener as a document holds it. -/
def listenerValue (l : Listener) : Value :=
  .table [("addr", .string l.addr.text), ("session_type", .string l.role.name)]

/-- TOML documents; their integers have 64 bits and a sign. -/
def Format.toml : Format where
  Value := Toml.Value
  parse := Toml.parse
  count? := countOf?
  text? := stringOf?
  addr? := addrOf?
  listeners? := listenersOf?
  ofCount n := .integer n
  ofText := .string
  ofAddr addr := .string addr.text
  ofListeners ls := .array (ls.map listenerValue)
  countMax := 9223372036854775807

end PeerRelay.Settings
