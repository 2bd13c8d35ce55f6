import PeerRelay.Settings.Format
import PeerRelay.Text.Utf8

/-!
# Where settings come from

Environment variables go over the defaults, command line flags over those, and
the keys of a settings file over all of them. A flag takes the argument after
it as its value, whatever that looks like; arguments that are no flags are
passed over. The file is named by the last flag for it or by a variable.
-/

namespace PeerRelay.Settings

variable {α ε : Type}

/-- What the source reads as, or the value so far when the source says nothing. -/
def layered (current : α) (source : Option String) (read : String → Except ε α) :
    Except ε α :=
  match source with
  | none => .ok current
  | some text => read text

/-! ## Environment variables -/

/-- The environment variables that are looked at. -/
def variableNames : List String :=
  ["NATPROXY_LISTEN", "NATPROXY_WORKERS", "NATPROXY_LOGIN_TIMEOUT", "NATPROXY_HTTP_ADDR",
    "NATPROXY_ADMIN_TOKEN", "NATPROXY_REDIS_URL", "NATPROXY_CONFIG"]

/-- The settings with those that environment variables give. -/
def withEnv (env : String → Option String) (s : Settings) : Except Error Settings := do
  let listeners ← layered s.listeners (env "NATPROXY_LISTEN") readListeners
  let workerThreads ←
    layered s.workerThreads (env "NATPROXY_WORKERS") (readCount "NATPROXY_WORKERS")
  let loginTimeoutSecs ←
    layered s.loginTimeoutSecs (env "NATPROXY_LOGIN_TIMEOUT") (readCount "NATPROXY_LOGIN_TIMEOUT")
  let httpAddr ← layered s.httpAddr (env "NATPROXY_HTTP_ADDR")
    (fun text => some <$> readAddr "NATPROXY_HTTP_ADDR" text)
  let adminToken ← layered s.adminToken (env "NATPROXY_ADMIN_TOKEN") (fun text => .ok (some text))
  let redisUrl ← layered s.redisUrl (env "NATPROXY_REDIS_URL") (fun text => .ok (some text))
  return { s with listeners, workerThreads, loginTimeoutSecs, httpAddr, adminToken, redisUrl }

/-! ## Command line -/

/-- A flag that takes a value. -/
inductive Flag where
  | listen
  | workers
  | config
  | httpAddr
  | adminToken
  deriving DecidableEq, Repr

def Flag.ofText? (text : String) : Option Flag :=
  [("--listen", listen), ("-l", listen), ("--workers", workers), ("-w", workers),
    ("--config", config), ("-f", config), ("--http-addr", httpAddr),
    ("--admin-token", adminToken)].lookup text

/-- A flag as it was written, with its value if there was one. -/
structure Given where
  flag : Flag
  spelling : String
  value : Option String
  deriving DecidableEq, Repr

/-- The flags of a command line, from left to right. -/
def scan : List String → List Given
  | [] => []
  | arg :: rest =>
    match Flag.ofText? arg with
    | none => scan rest
    | some flag =>
      match rest with
      | [] => [⟨flag, arg, none⟩]
      | value :: rest => ⟨flag, arg, some value⟩ :: scan rest

/-- The settings with one more flag. -/
def withFlag (s : Settings) (given : Given) : Except Error Settings :=
  match given.value with
  | none => .error (.invalid (.missingValue given.spelling))
  | some text =>
    match given.flag with
    | .listen => do return { s with listeners := ← readListeners text }
    | .workers => do return { s with workerThreads := ← readCount "workers" text }
    | .config => .ok s
    | .httpAddr => do return { s with httpAddr := some (← readAddr "http_addr" text) }
    | .adminToken => .ok { s with adminToken := some text }

/-- The settings with the flags of a command line. -/
def withArgs (args : List String) (s : Settings) : Except Error Settings :=
  (scan args).foldlM withFlag s

/-- The settings file: the last one on the command line, or the one of the
environment. -/
def filePath? (args : List String) (env : String → Option String) : Option String :=
  let named := (scan args).filter (fun given => given.flag = .config)
  (named.getLast?.bind (·.value)) <|> env "NATPROXY_CONFIG"

/-! ## Settings file -/

/-- What stands under a key of the document, or the value so far when the document
does not have the key. -/
def overKey {Value : Type} (entries : List (String × Value)) (key : String)
    (read : Value → Option α) (current : α) : Option α :=
  match entries.lookup key with
  | none => some current
  | some v => read v

section

variable (format : Format)

/-- The settings with those that a document gives. -/
def withDocument (entries : List (String × format.Value)) (s : Settings) : Option Settings := do
  let listeners ← overKey entries "listeners" format.listeners? s.listeners
  let workerThreads ← overKey entries "worker_threads" format.count? s.workerThreads
  let loginTimeoutSecs ← overKey entries "login_timeout_secs" format.count? s.loginTimeoutSecs
  let channelMtu ← overKey entries "channel_mtu" format.count? s.channelMtu
  let portExpiredSecs ← overKey entries "port_expired_secs" format.count? s.portExpiredSecs
  let displayIntervalSecs ←
    overKey entries "display_interval_secs" format.count? s.displayIntervalSecs
  let maxSessions ← overKey entries "max_sessions" format.count? s.maxSessions
  let maxChannels ← overKey entries "max_channels" format.count? s.maxChannels
  let httpAddr ← overKey entries "http_addr" (fun v => some <$> format.addr? v) s.httpAddr
  let adminToken ← overKey entries "admin_token" (fun v => some <$> format.text? v) s.adminToken
  let redisUrl ← overKey entries "redis_url" (fun v => some <$> format.text? v) s.redisUrl
  return { listeners, workerThreads, loginTimeoutSecs, channelMtu, portExpiredSecs,
           displayIntervalSecs, maxSessions, maxChannels, httpAddr, adminToken, redisUrl }

/-- The settings as a document. What is not set has no key in it. -/
def document (s : Settings) : List (String × format.Value) :=
  [("listeners", format.ofListeners s.listeners),
    ("worker_threads", format.ofCount s.workerThreads),
    ("login_timeout_secs", format.ofCount s.loginTimeoutSecs),
    ("channel_mtu", format.ofCount s.channelMtu),
    ("port_expired_secs", format.ofCount s.portExpiredSecs),
    ("display_interval_secs", format.ofCount s.displayIntervalSecs),
    ("max_sessions", format.ofCount s.maxSessions),
    ("max_channels", format.ofCount s.maxChannels)] ++
  (s.httpAddr.map fun addr => ("http_addr", format.ofAddr addr)).toList ++
  (s.adminToken.map fun token => ("admin_token", format.ofText token)).toList ++
  (s.redisUrl.map fun url => ("redis_url", format.ofText url)).toList

/-- Whether every number of the settings could stand in a document. -/
def fitsDocument (s : Settings) : Bool :=
  [s.workerThreads, s.loginTimeoutSecs, s.channelMtu, s.portExpiredSecs,
    s.displayIntervalSecs, s.maxSessions, s.maxChannels].all (· ≤ format.countMax)

/-- The settings with those of a file, whose bytes are given. The settings so far are
written as a document, which they must fit in, the keys of the file go over those of
it, and all of that is read again. -/
def withFile (content : Bytes) (s : Settings) : Except Error Settings :=
  match Text.Utf8.decode? content with
  | none => .error (.file .notText)
  | some text =>
    match format.parse text with
    | none => .error .document
    | some entries =>
      if s.fitsDocument format then
        match ({} : Settings).withDocument format (entries ++ s.document format) with
        | none => .error .document
        | some s => .ok s
      else .error .beyondDocument

end

/-! ## All layers -/

/-- The settings from a command line without the program's name, an environment
and a way to read files, which are documents of a format. -/
def load (args : List String) (env : String → Option String)
    (readFile : String → Except FileFault Bytes) (format : Format := .toml) :
    Except Error Settings := do
  let s ← withEnv env {}
  let s ← withArgs args s
  match filePath? args env with
  | none => s.validate
  | some path =>
    match readFile path with
    | .error fault => .error (.file fault)
    | .ok content => do
      let s ← s.withFile format content
      s.validate

end PeerRelay.Settings
