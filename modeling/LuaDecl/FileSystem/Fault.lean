/-!
# Faults of the file system

The ways in which an operation on a path fails, with the text that the operating system gives.

A fault tells of the path, or of a device that takes no more of a file. Since the tree has no
permissions, none is ever denied. The making of a directory or of an empty file never fails for want
of room.
-/

namespace LuaDecl.FileSystem

/-- Why a device takes no more bytes of a file. -/
inductive DeviceFault where
  /-- The disk is full. -/
  | noSpace
  /-- The owner's share of the disk is used up. -/
  | quotaExceeded
  /-- No file may be larger. -/
  | fileTooLarge
  /-- The device is broken. -/
  | inputOutput
  deriving DecidableEq, Repr

/-- The text of a fault of a device. -/
def DeviceFault.message : DeviceFault → String
  | .noSpace => "No space left on device (os error 28)"
  | .quotaExceeded => "Disk quota exceeded (os error 122)"
  | .fileTooLarge => "File too large (os error 27)"
  | .inputOutput => "Input/output error (os error 5)"

/-- Why an operation on a path failed. -/
inductive Fault where
  /-- The path, or a directory on the way, does not exist. -/
  | notFound
  /-- Something is there already. -/
  | alreadyExists
  /-- A name on the way is no directory. -/
  | notDirectory
  /-- The path is a directory, and a file was wanted. -/
  | isDirectory
  /-- A name or the whole path is too long. -/
  | nameTooLong
  /-- The path leads through too many symbolic links. -/
  | tooManyLinks
  /-- The path holds a NUL character, which no path can. -/
  | nulInPath
  /-- The file was opened, and its device did not take all of the content. -/
  | device (fault : DeviceFault)
  deriving DecidableEq, Repr

/-- The text of a fault. -/
def Fault.message : Fault → String
  | .notFound => "No such file or directory (os error 2)"
  | .alreadyExists => "File exists (os error 17)"
  | .notDirectory => "Not a directory (os error 20)"
  | .isDirectory => "Is a directory (os error 21)"
  | .nameTooLong => "File name too long (os error 36)"
  | .tooManyLinks => "Too many levels of symbolic links (os error 40)"
  | .nulInPath => "file name contained an unexpected NUL byte"
  | .device fault => fault.message

end LuaDecl.FileSystem
