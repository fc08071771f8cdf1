import LuaDecl.FileSystem.Entry
import LuaDecl.FileSystem.Fault
import LuaDecl.FileSystem.Path

/-!
# Where paths lead

A path is followed name by name from the root or the working directory. A dot stays, two dots go up,
a link leads on along its target. At the end stands an entry, or a place in a directory where one
could be.
-/

namespace LuaDecl

/-- How many bytes a device takes of a file, and the fault with which it refuses more. -/
structure FileSystem.Limit where
  bytes : Nat
  fault : FileSystem.DeviceFault
  deriving DecidableEq, Repr

/-- A tree, as the children of its root, and the directory at which relative paths start. At the
locations where one is given, a limit holds for what is written there. -/
structure FileSystem where
  root : List (String × FileSystem.Entry)
  workingDirectory : FileSystem.Location
  limit : FileSystem.Location → Option FileSystem.Limit := fun _ => none

namespace FileSystem

/-- The entry at a location. -/
def entryAt? (fs : FileSystem) (location : Location) : Option Entry :=
  (Entry.directory fs.root).at? location

/-- The file system with an entry put at a location other than the root. -/
def putAt (fs : FileSystem) (location : Location) (new : Entry) : FileSystem :=
  match Entry.put new (.directory fs.root) location with
  | .directory root => { fs with root }
  | _ => fs

/-- The file system without the entry at a location. -/
def eraseAt (fs : FileSystem) (location : Location) : FileSystem :=
  match (Entry.directory fs.root).erase location with
  | .directory root => { fs with root }
  | _ => fs

/-- Where a path leads. -/
inductive Place where
  /-- To an entry. -/
  | present (location : Location) (entry : Entry)
  /-- To a name that is free in a directory. -/
  | vacant (directory : Location) (name : String)

/-- The largest number of bytes in a name. -/
def nameLimit : Nat := 255

/-- The number of bytes that a path has to stay below. -/
def pathLimit : Nat := 4096

/-- The number of links that a path may lead through. -/
def linkLimit : Nat := 40

/-- The path of a location from the root on. -/
def spelling (location : Location) : String :=
  "/" ++ "/".intercalate location

/-- What a path is followed for. -/
inductive Intent where
  /-- To reach what it leads to, through a link at its end as well. -/
  | reach
  /-- To inspect what stands at its end, be it a link. -/
  | inspect
  /-- To reach a file that may be created there: a slash after the last name spells a directory. -/
  | create
  /-- To spell the location that it leads to: each entry on the way is looked at by its location,
  which has to be short enough, and the path as a whole is not. -/
  | spell
  deriving DecidableEq, Repr

/-- A directory stands at the location. -/
def holdsDirectory (fs : FileSystem) (location : Location) : Bool :=
  match fs.entryAt? location with
  | some (.directory _) => true
  | _ => false

/-- Follows steps from a directory up to the first link on the way, from where `through` goes on: it
is given the directory that the link stands in, its target and the steps behind it. -/
def followUntilLink (fs : FileSystem) (intent : Intent)
    (through : Location → String → List String → Except Fault Place) (directory : Location)
    (steps : List String) : Except Fault Place :=
  match steps with
  | [] =>
    match fs.entryAt? directory with
    | some entry => .ok (.present directory entry)
    | none => .error .notFound
  | name :: rest =>
    if name = "" ∨ name = "." then fs.followUntilLink intent through directory rest
    else if name = ".." then fs.followUntilLink intent through directory.dropLast rest
    else if intent = .create ∧ rest = [""] then .error .isDirectory
    else if nameLimit < name.utf8ByteSize then .error .nameTooLong
    else if intent = .spell ∧ pathLimit ≤ (spelling (directory ++ [name])).utf8ByteSize then
      .error .nameTooLong
    else
      let location := directory ++ [name]
      match fs.entryAt? location with
      | none =>
        if rest = [] ∧ fs.holdsDirectory directory then .ok (.vacant directory name)
        else .error .notFound
      | some (.directory _) => fs.followUntilLink intent through location rest
      | some (.file content) =>
        if rest = [] then .ok (.present location (.file content)) else .error .notDirectory
      | some (.link target) =>
        if rest = [] ∧ intent = .inspect then .ok (.present location (.link target))
        else through directory target rest

/-- Follows steps from a directory, through at most as many links as given. -/
def follow (fs : FileSystem) (intent : Intent) (links : Nat) : Location → List String →
    Except Fault Place :=
  fs.followUntilLink intent fun directory target rest =>
    match links with
    | 0 => .error .tooManyLinks
    | links + 1 =>
      if target.isEmpty then .error .notFound
      else
        let start := if Path.isAbsolute target then [] else directory
        fs.follow intent links start (Path.steps target ++ rest)

/-- Follows steps from where a path starts, if the path is one at all. -/
def followPath (fs : FileSystem) (intent : Intent) (path : String) (steps : List String) :
    Except Fault Place :=
  if path.toList.contains '\x00' then .error .nulInPath
  else if path.isEmpty then .error .notFound
  else if intent ≠ .spell ∧ pathLimit ≤ path.utf8ByteSize then .error .nameTooLong
  else
    fs.follow intent linkLimit (if Path.isAbsolute path then [] else fs.workingDirectory) steps

/-- Where a path leads, through a link at its end as well. -/
def resolve (fs : FileSystem) (path : String) : Except Fault Place :=
  fs.followPath .reach path (Path.steps path)

/-- Where a path leads, up to a link at its end. -/
def resolveLink (fs : FileSystem) (path : String) : Except Fault Place :=
  fs.followPath .inspect path (Path.steps path)

/-- The location that a path leads to, if something is there and the locations on the way can be
spelled. -/
def locate? (fs : FileSystem) (path : String) : Option Location :=
  match fs.followPath .spell path (Path.steps path) with
  | .ok (.present location _) => some location
  | _ => none

/-- The path leads to a file. -/
def isFile (fs : FileSystem) (path : String) : Bool :=
  match fs.resolve path with
  | .ok (.present _ (.file _)) => true
  | _ => false

/-- The path leads to a directory. -/
def isDirectory (fs : FileSystem) (path : String) : Bool :=
  match fs.resolve path with
  | .ok (.present _ (.directory _)) => true
  | _ => false

end FileSystem

end LuaDecl
