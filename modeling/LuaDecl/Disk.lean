import LuaDecl.Discovery
import LuaDecl.FileSystem.Access
import LuaDecl.FileSystem.Changes
import LuaDecl.ScanConfig.Loading

/-!
# The disk

A run works on a value, the file system. The functions here take an image of the part of the disk
that a run may look at, and bring the disk into agreement with the file system after the run. The
image has the target of every link spelled from the root, and a link that leads nowhere without one.
What the disk does not hand over is not in the image, nor is how much a device takes: what it
refuses comes to light when it is written.
-/

namespace LuaDecl.Disk

open FileSystem (Change Entry Location Path.join Path.names)

/-- The path of a location. -/
def pathAt (location : Location) : String :=
  "/" ++ String.intercalate "/" location

/-- The disk's own name for a location. -/
def nameAt (location : Location) : IO.FS.DirEntry :=
  ⟨"/", pathAt location⟩

/-- The location of what a path leads to, if something is there. -/
def locate? (path : String) : IO (Option Location) := do
  match ← (IO.FS.realPath path).toBaseIO with
  | .ok real => return some (Path.names real.toString)
  | .error _ => return none

/-- The type of what stands at a location, if something does. -/
def typeAt? (location : Location) : IO (Option IO.FS.FileType) := do
  match ← (nameAt location).path.symlinkMetadata.toBaseIO with
  | .ok data => return some data.type
  | .error _ => return none

/-- The names in a directory. -/
def namesIn (location : Location) : IO (List String) := do
  match ← (nameAt location).path.readDir.toBaseIO with
  | .ok found => return found.toList.map IO.FS.DirEntry.fileName
  | .error _ => return []

/-- The image with an entry at a location, and with the directories above it. What is there already
stays. -/
def enter (image : FileSystem) (location : Location) (entry : Entry) : FileSystem :=
  let enterOne (image : FileSystem) (location : Location) (entry : Entry) :=
    if (image.entryAt? location).isSome then image else image.putAt location entry
  let above := (List.range location.length).map location.take
  enterOne (above.foldl (enterOne · · (.directory [])) image) location entry

/-- The image with what stands at a location that no link is on the way to. Files come without
their content. -/
def enterAt (image : FileSystem) (location : Location) : IO FileSystem := do
  let enterPlain (image : FileSystem) (location : Location) (type : Option IO.FS.FileType) :=
    match type with
    | some .dir => enter image location (.directory [])
    | some .file => enter image location (.file ByteArray.empty)
    | _ => image
  match ← typeAt? location with
  | some .symlink =>
    match ← locate? (pathAt location) with
    | some target =>
      let image := enter image location (.link (pathAt target))
      return enterPlain image target (← typeAt? target)
    | none => return enter image location (.link "")
  | type => return enterPlain image location type

/-- The image with all that a path leads along, its end included. -/
def enterPath (image : FileSystem) (path : String) : IO FileSystem := do
  let start := if FileSystem.Path.isAbsolute path then "/" else "."
  let names := Path.names path
  let mut image := image
  for (name, position) in names.zipIdx do
    if name ≠ "." ∧ name ≠ ".." then
      if let some above ← locate? ((names.take position).foldl Path.join start) then
        image ← enterAt image (above ++ [name])
  return image

/-- The image with what stands below a directory. Directories deeper than the fuel stay empty. -/
def enterBelow (fuel : Nat) (image : FileSystem) (location : Location) : IO FileSystem := do
  match fuel with
  | 0 => return image
  | fuel + 1 =>
    let mut image := image
    for name in ← namesIn location do
      let below := location ++ [name]
      image ← enterAt image below
      if let some (.directory _) := image.entryAt? below then
        image ← enterBelow fuel image below
    return image

/-- The image with all that a path leads along, and with all below the directory at its end. No
path is deeper than the number of its bytes. -/
def enterTree (image : FileSystem) (path : String) : IO FileSystem := do
  let image ← enterPath image path
  match ← locate? path with
  | some location => enterBelow FileSystem.pathLimit image location
  | none => return image

/-- The image with the content of the file that a path leads to. -/
def enterContent (image : FileSystem) (path : String) : IO FileSystem := do
  match image.resolve path with
  | .ok (.present location (.file _)) =>
    return image.putAt location (.file (← IO.FS.readBinFile (pathAt location)))
  | _ => return image

/-- The image of nothing but the working directory. -/
def workingDirectory : IO FileSystem := do
  let location := Path.names (← IO.currentDir).toString
  return enter { root := [], workingDirectory := location } location (.directory [])

/-- Carries out one step. -/
def apply : Change → IO Unit
  | .makeDirectory location => IO.FS.createDir (pathAt location)
  | .writeFile location content => IO.FS.writeBinFile (pathAt location) content

/-- Brings the disk from one image to another. -/
def update (before after : FileSystem) : IO Unit :=
  (FileSystem.changes before.root after.root).forM apply

end LuaDecl.Disk
