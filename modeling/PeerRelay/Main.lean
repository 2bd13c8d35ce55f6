import PeerRelay.Server
import PeerRelay.Settings.FileTree
import PeerRelay.Settings.Layers

/-!
# Command line

Loads the settings, sets a server up under them and says what it serves. Sockets
and threads belong to the program that the server is a part of.
-/

namespace PeerRelay.Main

open Settings (FileFault FileTree)

/-- The variables of the environment that are looked at. -/
def environment : IO (List (String × String)) :=
  Settings.variableNames.filterMapM fun name => do
    return (← IO.getEnv name).map (fun value => (name, value))

/-- The content of the settings file. -/
def content (path : String) : IO (Except FileFault Bytes) := do
  if let some fault := FileTree.pathFault? path then
    return .error fault
  try
    return .ok (← IO.FS.readBinFile path).toList
  catch
    | .noFileOrDirectory .. => return .error .missing
    | e => return .error (.unreadable (toString e))

/-- The settings that the command line, the environment and the file give. -/
def settings (args : List String) : IO (Except Settings.Error Settings) := do
  let found ← environment
  let env := fun name => found.lookup name
  let file ← match Settings.filePath? args env with
    | none => pure (.error .missing)
    | some path => content path
  return Settings.load args env (fun _ => file)

def fail (message : String) : IO UInt32 := do
  IO.eprintln s!"Error: {message}"
  return 1

def run (args : List String) : IO UInt32 := do
  match ← settings args with
  | .error e => fail e.message
  | .ok s =>
    match Server.ofSettings s with
    | .error e => fail e.message
    | .ok server =>
      for listener in server.settings.listeners do
        IO.println s!"Control listener {listener.addr.text} for {listener.role.name} sessions"
      if let some addr := server.settings.httpAddr then
        IO.println s!"HTTP server {addr.text} for health and metrics"
      return 0

end PeerRelay.Main

def main (args : List String) : IO UInt32 := PeerRelay.Main.run args
