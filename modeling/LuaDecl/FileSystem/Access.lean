import LuaDecl.FileSystem.Resolve

/-!
# Reading and writing

The operations on files and directories by path. An operation that fails because of its path leaves
the file system as it is, except that directories which were made on the way to a failure stay. A
write empties the file first, so one that fails because of the device leaves what the device took.
Of all that can go wrong with a device this is the only part told here: a disk that is full may also
refuse a new directory or an empty file, and a disk that is broken may refuse to be read.
-/

namespace LuaDecl.FileSystem

/-- The content of the file that a path leads to. -/
def read (fs : FileSystem) (path : String) : Except Fault ByteArray :=
  match fs.resolve path with
  | .ok (.present _ (.file content)) => .ok content
  | .ok (.present _ (.directory _)) => .error .isDirectory
  | .ok (.present _ (.link _)) | .ok (.vacant _ _) => .error .notFound
  | .error fault => .error fault

/-- Empties the file at a location, or makes an empty one, and fills it with content as far as its
device takes that. -/
def store (fs : FileSystem) (location : Location) (content : ByteArray) :
    FileSystem × Except Fault Unit :=
  match fs.limit location with
  | none => (fs.putAt location (.file content), .ok ())
  | some limit =>
    if content.size ≤ limit.bytes then (fs.putAt location (.file content), .ok ())
    else
      (fs.putAt location (.file (content.extract 0 limit.bytes)), .error (.device limit.fault))

/-- Writes content to a path. A file there is replaced, and a free name in a directory taken. -/
def write (fs : FileSystem) (path : String) (content : ByteArray) :
    FileSystem × Except Fault Unit :=
  match fs.followPath .create path (Path.steps path) with
  | .ok (.present location (.file _)) => fs.store location content
  | .ok (.present _ (.directory _)) => (fs, .error .isDirectory)
  | .ok (.present _ (.link _)) => (fs, .error .notFound)
  | .ok (.vacant directory name) => fs.store (directory ++ [name]) content
  | .error fault => (fs, .error fault)

/-- The file system with an empty directory made at a path. Anything in its place, links included,
is in the way. -/
def makeDirectory (fs : FileSystem) (path : String) : Except Fault FileSystem :=
  match fs.followPath .inspect path (Path.names path) with
  | .ok (.present _ _) => .error .alreadyExists
  | .ok (.vacant directory name) => .ok (fs.putAt (directory ++ [name]) (.directory []))
  | .error fault => .error fault

/-- Makes a directory and, before it, those of its ancestors that are not there, nearest first. A
directory that is there already is no fault. -/
def makeWithAncestors (fs : FileSystem) (path : String) (ancestors : List String) :
    FileSystem × Except Fault Unit :=
  match fs.makeDirectory path with
  | .ok made => (made, .ok ())
  | .error .notFound =>
    match ancestors with
    | [] => (fs, .error .notFound)
    | parent :: more =>
      match fs.makeWithAncestors parent more with
      | (fs, .error fault) => (fs, .error fault)
      | (fs, .ok ()) =>
        match fs.makeDirectory path with
        | .ok made => (made, .ok ())
        | .error fault => (fs, if fs.isDirectory path then .ok () else .error fault)
  | .error fault => (fs, if fs.isDirectory path then .ok () else .error fault)

/-- Makes a directory with all that is missing above it. -/
def makeDirectories (fs : FileSystem) (path : String) : FileSystem × Except Fault Unit :=
  fs.makeWithAncestors path (Path.ancestors path)

/-- The file system with a symbolic link put at a path, over anything that stands there. -/
def makeLink (fs : FileSystem) (path target : String) : Except Fault FileSystem :=
  match fs.resolveLink path with
  | .ok (.present location _) => .ok (fs.putAt location (.link target))
  | .ok (.vacant directory name) => .ok (fs.putAt (directory ++ [name]) (.link target))
  | .error fault => .error fault

/-- The file system without what stands at a path, a directory with all below it. -/
def remove (fs : FileSystem) (path : String) : Except Fault FileSystem :=
  match fs.resolveLink path with
  | .ok (.present location _) => .ok (fs.eraseAt location)
  | .ok (.vacant _ _) => .error .notFound
  | .error fault => .error fault

end LuaDecl.FileSystem
