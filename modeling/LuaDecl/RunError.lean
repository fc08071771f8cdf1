import LuaDecl.FileSystem.Fault

/-!
# Errors of a run

A source that cannot be read is skipped and the run goes on. All other errors end it.
-/

namespace LuaDecl

open FileSystem (Fault)

/-- What is wrong with a configuration file. -/
inductive ConfigFault where
  /-- The file cannot be read. -/
  | unreadable (fault : Fault)
  /-- The file is not UTF-8. -/
  | notUtf8
  /-- The text is not TOML. Where it is not and why, which a parser tells in further lines, is left
  out of the text of this fault. -/
  | malformed
  deriving DecidableEq, Repr

/-- The text of what is wrong with a configuration file. -/
def ConfigFault.message : ConfigFault → String
  | .unreadable fault => fault.message
  | .notUtf8 => "stream did not contain valid UTF-8"
  | .malformed => "TOML parse error"

/-- An error of a run, with the path it is about. -/
inductive RunError where
  /-- A source cannot be read. -/
  | read (path : String) (fault : Fault)
  /-- A directory above the output cannot be made. -/
  | createDirectory (path : String) (fault : Fault)
  /-- The output cannot be written. -/
  | write (path : String) (fault : Fault)
  /-- A configuration file that was asked for cannot be used. -/
  | config (path : String) (fault : ConfigFault)
  deriving DecidableEq, Repr

namespace RunError

/-- The text of an error. -/
def message : RunError → String
  | read path fault => "Could not read " ++ path ++ ": " ++ fault.message
  | createDirectory path fault => "Could not create directory " ++ path ++ ": " ++ fault.message
  | write path fault => "Could not write " ++ path ++ ": " ++ fault.message
  | config path fault => "Invalid config " ++ path ++ ": " ++ fault.message

/-- The run goes on after the error. -/
def isRecoverable : RunError → Bool
  | read _ _ => true
  | _ => false

end RunError

end LuaDecl
