import PeerRelay.Channel.Config
import PeerRelay.Net.Reader
import PeerRelay.Role
import PeerRelay.Text.Blank
import PeerRelay.Text.Number

/-!
# Settings

What the relay is told before it starts: where it listens and for whom, how
many threads it uses, and its limits. This module holds the settings with their
defaults, what can be wrong with them, and the readers of single values;
`Settings.validate` refuses settings that the relay cannot run with.
-/

namespace PeerRelay

/-- An address to listen on and the role of the sessions that arrive there. -/
structure Listener where
  addr : SocketAddr
  role : Role := .either
  deriving DecidableEq, Repr

/-- Everything that can be set. A limit or an interval of zero is switched off. -/
structure Settings where
  listeners : List Listener := [⟨⟨.v4 .unspecified, 10001, 0⟩, .either⟩]
  workerThreads : Nat := 2
  loginTimeoutSecs : Nat := 30
  channelMtu : Nat := 2048
  portExpiredSecs : Nat := 120
  displayIntervalSecs : Nat := 60
  maxSessions : Nat := 0
  maxChannels : Nat := 0
  httpAddr : Option SocketAddr := none
  adminToken : Option String := none
  redisUrl : Option String := none
  deriving DecidableEq, Repr

namespace Settings

/-- Why a value or the settings as a whole are refused. -/
inductive Fault where
  | unknownRole (name : String)
  | listenAddress (text : String)
  | number (name : String) (cause : Text.NumberError)
  | address (name : String)
  | missingValue (flag : String)
  | noListener
  | duplicateListener (addr : SocketAddr)
  | noWorker
  | noLoginTimeout
  | mtu (given : Nat)
  | emptyToken
  deriving DecidableEq, Repr

def Fault.message : Fault → String
  | unknownRole name => s!"Unknown session type: {name}"
  | listenAddress text => s!"Invalid listen address {text}: invalid socket address syntax"
  | number name cause => s!"Invalid {name}: {cause.message}"
  | address name => s!"Invalid {name}: invalid socket address syntax"
  | missingValue flag => s!"{flag} requires a value"
  | noListener => "at least one listener is required"
  | duplicateListener addr => s!"duplicate listener {addr.text}"
  | noWorker => "worker_threads must be > 0"
  | noLoginTimeout => "login_timeout_secs must be > 0"
  | mtu given => s!"channel_mtu must be within 64..=65535, got {given}"
  | emptyToken => "admin_token must not be empty"

/-- Why the settings file cannot be taken in. -/
inductive FileFault where
  | missing
  /-- The path holds the character that ends paths. -/
  | invalidName
  | nameTooLong
  /-- The path leads through something that is no directory. -/
  | notDirectory
  /-- The path names a directory. -/
  | directory
  | notText
  | unreadable (reason : String)
  deriving DecidableEq, Repr

def FileFault.message : FileFault → String
  | missing => "No such file or directory (os error 2)"
  | invalidName => "file name contained an unexpected NUL byte"
  | nameTooLong => "File name too long (os error 36)"
  | notDirectory => "Not a directory (os error 20)"
  | directory => "Is a directory (os error 21)"
  | notText => "stream did not contain valid UTF-8"
  | unreadable reason => reason

/-- Why there are no settings to start with. -/
inductive Error where
  | invalid (fault : Fault)
  | file (fault : FileFault)
  /-- The file is no TOML document, or a value in it does not fit its key. -/
  | document
  /-- A number set elsewhere is larger than those that a document can hold. -/
  | beyondDocument
  deriving DecidableEq, Repr

def Error.message : Error → String
  | invalid fault => s!"Invalid configuration: {fault.message}"
  | file fault => s!"IO error: {fault.message}"
  | document => "TOML parse error"
  | beyondDocument => "TOML encode error"

/-- Reads a role; the case of ASCII letters does not count. -/
def readRole (text : String) : Except Error Role :=
  match Role.ofName? (text.map Char.toLower) with
  | some role => .ok role
  | none => .error (.invalid (.unknownRole (text.map Char.toLower)))

def readListenAddr (text : String) : Except Error SocketAddr :=
  match SocketAddr.ofText? text with
  | some addr => .ok addr
  | none => .error (.invalid (.listenAddress text))

/-- Reads a listener: an address, or an address, a slash and a role. The role is
looked at first. -/
def readListener (text : String) : Except Error Listener :=
  let cs := text.toList
  let addr := String.ofList (cs.takeWhile (· != '/'))
  match cs.dropWhile (· != '/') with
  | [] => do return { addr := ← readListenAddr addr }
  | _ :: role => do
    let role ← readRole (String.ofList role)
    return { addr := ← readListenAddr addr, role }

/-- Reads listeners between commas. Pieces of nothing but white space are passed
over. -/
def readListeners (text : String) : Except Error (List Listener) :=
  let pieces := ((Text.splitOn ',' text.toList).map Text.trim).filter (fun p => !p.isEmpty)
  pieces.mapM (fun p => readListener (String.ofList p))

/-- Reads a number of 64 bits that goes by a name. -/
def readCount (name text : String) : Except Error Nat :=
  match Text.readNumber Text.bound64 text.toList with
  | .ok n => .ok n
  | .error cause => .error (.invalid (.number name cause))

/-- Reads an address that goes by a name. -/
def readAddr (name text : String) : Except Error SocketAddr :=
  match SocketAddr.ofText? text with
  | some addr => .ok addr
  | none => .error (.invalid (.address name))

/-- The first address that occurs a second time. -/
def repeatedAddr? (addrs : List SocketAddr) : Option SocketAddr :=
  go [] addrs
where
  go (seen : List SocketAddr) : List SocketAddr → Option SocketAddr
    | [] => none
    | addr :: rest => if addr ∈ seen then some addr else go (addr :: seen) rest

/-- The first fault of the settings. -/
def fault? (s : Settings) : Option Fault :=
  if s.listeners.isEmpty then some .noListener
  else
    match repeatedAddr? (s.listeners.map (·.addr)) with
    | some addr => some (.duplicateListener addr)
    | none =>
      if s.workerThreads = 0 then some .noWorker
      else if s.loginTimeoutSecs = 0 then some .noLoginTimeout
      else if s.channelMtu < 64 ∨ 65535 < s.channelMtu then some (.mtu s.channelMtu)
      else if s.adminToken = some "" then some .emptyToken
      else none

/-- The settings, unless they have a fault. -/
def validate (s : Settings) : Except Error Settings :=
  match s.fault? with
  | none => .ok s
  | some fault => .error (.invalid fault)

/-- A number of seconds in milliseconds, unless it is zero. -/
def interval (secs : Nat) : Option Nat :=
  if secs = 0 then none else some (1000 * secs)

/-- How channels are run under the settings. -/
def channel (s : Settings) : Channel.Config where
  mtu := s.channelMtu
  expiry := interval s.portExpiredSecs
  reportEvery := interval s.displayIntervalSecs

end Settings

end PeerRelay
