import PeerRelay.Settings
import PeerRelay.Text.Utf8

/-!
# File trees

Where a settings file lies. The relay itself takes whatever is read under a path; the tree
stands for the file system around it. Paths that can name no file, whatever the tree, are
refused first. Any other path is walked a name at a time, from the root or from
the working directory, and the first name that cannot be followed decides:
because what stands in front of it is no directory, because it is longer than
names can be, or because nothing goes by it.
-/

namespace PeerRelay.Settings

/-- What a place of a tree holds. -/
inductive Node where
  | directory
  | file (content : Bytes)
  deriving DecidableEq, Repr

/-- Directories and files, each under the names that lead from it up to the root.
The root is always there. -/
structure FileTree where
  nodes : List (List String × Node) := []
  working : List String := []
  deriving Repr

namespace FileTree

/-- How many bytes a name may have. -/
def nameLimit : Nat := 255

/-- How many bytes a path may have. -/
def pathLimit : Nat := 4095

/-- Why a path names no file in any tree. -/
def pathFault? (path : String) : Option FileFault :=
  if '\x00' ∈ path.toList then some .invalidName
  else if path = "" then some .missing
  else if pathLimit < path.utf8ByteSize then some .nameTooLong
  else none

def node? (tree : FileTree) : List String → Option Node
  | [] => some .directory
  | place => tree.nodes.lookup place

/-- Goes from a place along the names of a path. An empty name and a dot stay where
they are, two dots go up, and the root is above itself. -/
def follow (tree : FileTree) (place : List String) :
    List (List Char) → Except FileFault (List String)
  | [] => .ok place
  | name :: rest =>
    match tree.node? place with
    | some .directory =>
      if name = [] ∨ name = ['.'] then tree.follow place rest
      else if name = ['.', '.'] then tree.follow place.tail rest
      else
        let name := String.ofList name
        if nameLimit < name.utf8ByteSize then .error .nameTooLong
        else if (tree.node? (name :: place)).isNone then .error .missing
        else tree.follow (name :: place) rest
    | _ => .error .notDirectory

/-- The place that a path leads to. -/
def place (tree : FileTree) (path : String) : Except FileFault (List String) :=
  let start := if path.toList.head? = some '/' then [] else tree.working
  tree.follow start (Text.splitOn '/' path.toList)

/-- The content of the file that a path names. -/
def read (tree : FileTree) (path : String) : Except FileFault Bytes :=
  match pathFault? path with
  | some fault => .error fault
  | none => do
    match tree.node? (← tree.place path) with
    | some (.file content) => .ok content
    | some .directory => .error .directory
    | none => .error .missing

/-- The place that an absolute path spells out. -/
def spelled (path : String) : List String :=
  (((Text.splitOn '/' path.toList).filter (· ≠ [])).map String.ofList).reverse

def addDirectory (tree : FileTree) (path : String) : FileTree :=
  { tree with nodes := (spelled path, .directory) :: tree.nodes }

def addFile (tree : FileTree) (path : String) (content : Bytes) : FileTree :=
  { tree with nodes := (spelled path, .file content) :: tree.nodes }

/-- The directories that every system has, its empty device, its users and its hosts.
The working directory is an empty one. -/
def standard : FileTree :=
  let tree := standardDirectories.foldl addDirectory { working := spelled "/srv" }
  ((tree.addFile "/dev/null" []).addFile "/etc/passwd"
    (Text.Utf8.encode "root:x:0:0:root:/root:/bin/sh\n")).addFile "/etc/hosts"
    (Text.Utf8.encode "127.0.0.1 localhost\n")
where
  standardDirectories : List String :=
    ["/bin", "/boot", "/dev", "/dev/shm", "/etc", "/home", "/lib", "/media", "/mnt",
      "/opt", "/proc", "/root", "/run", "/sbin", "/srv", "/sys", "/tmp", "/usr",
      "/usr/bin", "/usr/lib", "/usr/local", "/usr/sbin", "/usr/share", "/var",
      "/var/cache", "/var/lib", "/var/log", "/var/tmp"]

end FileTree

end PeerRelay.Settings
