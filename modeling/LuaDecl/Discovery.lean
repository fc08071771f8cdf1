import LuaDecl.FileSystem.Walk
import LuaDecl.Logged

/-!
# Discovery of sources

The inputs of a run are expanded in order: a directory to the accepted files below it, a file to
itself if it is accepted. A file that several paths lead to is queued once, under the first of them.
-/

namespace LuaDecl.Discovery

open FileSystem (Location Leaf)

/-- What a path leads to, as far as telling files apart goes: the components of its location's path,
or those of the path itself when its location cannot be found. -/
def identity (fs : FileSystem) (path : String) : List String :=
  match fs.locate? path with
  | some location => "/" :: location
  | none => FileSystem.Path.components path

/-- The path spells a file name with an accepted extension. -/
def isAccepted (config : ScanConfig) (path : String) : Bool :=
  match FileSystem.Path.extension? path with
  | some extension => config.acceptsExtension extension
  | none => false

/-- The path of a location below a directory that is spelled in a given way. -/
def pathBelow (directory : String) (location : Location) : String :=
  location.foldl FileSystem.Path.join directory

/-- A directory can be opened by its path, as long as the path is not too long. -/
def isOpenable (directory : String) (location : Location) : Bool :=
  (pathBelow directory location).utf8ByteSize < FileSystem.pathLimit

/-- The leaf is a file, or its path leads through links to one. -/
def leadsToFile (fs : FileSystem) (path : String) (leaf : Leaf) : Bool :=
  match leaf.entry with
  | .file _ => true
  | .link _ => fs.isFile path
  | .directory _ => false

/-- The input stands for the standard input, below which there is nothing to walk. -/
def isStandardInput (input : String) : Bool :=
  FileSystem.Path.components input = ["-"]

/-- The files that a leaf of a walk stands for, one or none. -/
def visit (fs : FileSystem) (config : ScanConfig) (directory : String) (leaf : Leaf) :
    Logged (List String) := do
  let path := pathBelow directory leaf.location
  match leaf.entry with
  | .directory _ =>
    Logged.log (.walkBlocked directory path .nameTooLong)
    return []
  | _ => return if leadsToFile fs path leaf && isAccepted config path then [path] else []

/-- The files that leaves of a walk stand for, in order. -/
def visitAll (fs : FileSystem) (config : ScanConfig) (directory : String) :
    List Leaf → Logged (List String)
  | [] => pure []
  | leaf :: rest => do
    let files ← visit fs config directory leaf
    let more ← visitAll fs config directory rest
    return files ++ more

/-- The accepted files below a directory, in walk order. -/
def walk (fs : FileSystem) (config : ScanConfig) (directory : String) : Logged (List String) :=
  if isStandardInput directory then pure []
  else
    match fs.resolve directory with
    | .ok (.present _ (.directory children)) =>
      visitAll fs config directory
        (FileSystem.leaves config.skips (isOpenable directory) children)
    | _ => pure []

/-- The files that an input stands for. -/
def expand (fs : FileSystem) (config : ScanConfig) (input : String) : Logged (List String) := do
  if fs.isDirectory input then
    let files ← walk fs config input
    Logged.log (.directoryWalked input files.length)
    return files
  else if fs.isFile input then
    if isAccepted config input then return [input]
    else
      Logged.log (.notSource input)
      return []
  else
    Logged.log (.inputNotFound input)
    return []

/-- The files whose identity is not seen yet, and the identities seen after them. -/
def queue (fs : FileSystem) (seen : List (List String)) :
    List String → Logged (List String × List (List String))
  | [] => pure ([], seen)
  | path :: rest => do
    let own := identity fs path
    if own ∈ seen then
      Logged.log (.alreadyQueued path)
      queue fs seen rest
    else
      let (files, seen) ← queue fs (own :: seen) rest
      return (path :: files, seen)

/-- The files of the inputs whose identity is not seen yet. -/
def discoverFrom (fs : FileSystem) (config : ScanConfig) (seen : List (List String)) :
    (inputs : List String) → Logged (List String)
  | [] => pure []
  | input :: rest => do
    let found ← expand fs config input
    let (files, seen) ← queue fs seen found
    let more ← discoverFrom fs config seen rest
    return files ++ more

/-- The files of a run, in order. -/
def discover (fs : FileSystem) (config : ScanConfig) (inputs : List String) :
    Logged (List String) :=
  discoverFrom fs config [] inputs

end LuaDecl.Discovery
