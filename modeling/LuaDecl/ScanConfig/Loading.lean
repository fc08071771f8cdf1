import LuaDecl.FileSystem.Access
import LuaDecl.ScanConfig.Reading

/-!
# Loading a configuration

A configuration file that is asked for has to be there and to be TOML. Without one, the file of the
usual name in the working directory counts if it is there, and if it cannot be used that is reported
and the defaults apply.
-/

namespace LuaDecl.ScanConfig

/-- The configuration in a file. -/
def readFile (fs : FileSystem) (path : String) : Logged (Except ConfigFault ScanConfig) := do
  Logged.log (.configLoading path)
  match fs.read path with
  | .error fault => return .error (.unreadable fault)
  | .ok bytes =>
    match String.fromUTF8? bytes with
    | none => return .error .notUtf8
    | some text =>
      match read? text with
      | none => return .error .malformed
      | some config => return .ok (← config)

/-- The configuration of a run: from the file that is asked for, or else from the directory. -/
def load (fs : FileSystem) (explicit : Option String) (directory : String) :
    Logged (Except RunError ScanConfig) := do
  match explicit with
  | some path =>
    match ← readFile fs path with
    | .ok config => return .ok config
    | .error fault => return .error (.config path fault)
  | none =>
    let path := FileSystem.Path.join directory fileName
    if fs.isFile path then
      match ← readFile fs path with
      | .ok config => return .ok config
      | .error fault =>
        Logged.log (.configIgnored path fault)
        return .ok default
    else return .ok default

end LuaDecl.ScanConfig
