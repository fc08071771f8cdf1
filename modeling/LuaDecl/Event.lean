import LuaDecl.RunError
import LuaDecl.ScanConfig
import LuaDecl.Summary
import LuaDecl.Text.JsonString

/-!
# Log events

What a run tells about its progress. An event is the thing that happened; its level, its text, its
fields and the part of the program that logs it follow from that.
-/

namespace LuaDecl

/-- How much an event matters. -/
inductive Level where
  | warn
  | info
  | debug
  deriving DecidableEq, Repr

/-- The name of a level. -/
def Level.name : Level → String
  | .warn => "WARN"
  | .info => "INFO"
  | .debug => "DEBUG"

/-- Something that a run reports. -/
inductive Event where
  /-- A second definition of a key differs from the one kept. -/
  | duplicateIgnored (key kept ignored : String)
  /-- A configuration holds a key that means nothing, perhaps a misspelled one. -/
  | unknownKey (key : String) (suggestion : Option String)
  /-- A known key of a configuration holds something other than an array. -/
  | arrayExpected (key : String)
  /-- A configuration file is about to be read. -/
  | configLoading (path : String)
  /-- The configuration file of a directory cannot be used, and the defaults apply. -/
  | configIgnored (path : String) (fault : ConfigFault)
  /-- The configuration of the run is settled. -/
  | configSettled (config : ScanConfig)
  /-- A directory was walked. Files that are queued already are counted too. -/
  | directoryWalked (directory : String) (files : Nat)
  /-- A directory below another could not be opened. -/
  | walkBlocked (directory path : String) (fault : FileSystem.Fault)
  /-- A file was reached before by another path. -/
  | alreadyQueued (path : String)
  /-- An input is a file without an accepted extension. -/
  | notSource (path : String)
  /-- An input is neither a file nor a directory. -/
  | inputNotFound (path : String)
  /-- A source was read. -/
  | signaturesExtracted (path : String) (found added : Nat)
  /-- A source could not be read. -/
  | fileSkipped (error : RunError)
  /-- A run begins. -/
  | scanning (inputs : Nat) (output : String)
  /-- No source holds a definition. -/
  | nothingFound (files : Nat)
  /-- A run ends well. -/
  | stubWritten (summary : Summary)

/-- The value of a field of an event. -/
inductive Event.Value where
  | text (text : String)
  | number (number : Nat)
  deriving DecidableEq, Repr

namespace Event

/-- The level of an event. -/
def level : Event → Level
  | unknownKey _ _ | arrayExpected _ | configIgnored _ _ | walkBlocked _ _ _ | notSource _
  | inputNotFound _ | fileSkipped _ | nothingFound _ => .warn
  | scanning _ _ | stubWritten _ => .info
  | duplicateIgnored _ _ _ | configLoading _ | configSettled _ | directoryWalked _ _
  | alreadyQueued _ | signaturesExtracted _ _ _ => .debug

/-- The text of an event. -/
def message : Event → String
  | duplicateIgnored _ _ _ => "Duplicate definition ignored"
  | unknownKey _ (some suggestion) =>
    "Unknown key in " ++ ScanConfig.fileName ++ ", did you mean '" ++ suggestion ++ "'?"
  | unknownKey _ none =>
    "Unknown key in " ++ ScanConfig.fileName ++ " (known keys: " ++
      String.intercalate ", " ScanConfig.knownKeys ++ ")"
  | arrayExpected _ => "Expected an array of strings in " ++ ScanConfig.fileName ++ ", ignoring"
  | configLoading _ => "Loading config"
  | configIgnored _ _ => "Ignoring unreadable config"
  | configSettled _ => "Scan config"
  | directoryWalked _ _ => "Walked directory"
  | walkBlocked _ _ _ => "Walk error, continuing"
  | alreadyQueued _ => "Already queued, skipping duplicate"
  | notSource _ => "Not a source file, skipping"
  | inputNotFound _ => "Input not found, skipping"
  | signaturesExtracted _ _ _ => "Extracted signatures"
  | fileSkipped _ => "Skipping file"
  | scanning _ _ => "Scanning for Lua sources"
  | nothingFound _ => "No function definitions found, writing header only"
  | stubWritten _ => "Stub file written"

/-- The text of a list of texts: each quoted, all in braces. -/
def listText (texts : List String) : String :=
  "\x7b" ++ String.intercalate ", " (texts.map Text.JsonString.quote) ++ "\x7d"

/-- The named values of an event. -/
def fields : Event → List (String × Value)
  | duplicateIgnored key kept ignored =>
    [("key", .text key), ("kept", .text kept), ("ignored", .text ignored)]
  | unknownKey key (some suggestion) => [("key", .text key), ("suggestion", .text suggestion)]
  | unknownKey key none => [("key", .text key)]
  | arrayExpected key => [("key", .text key)]
  | configLoading path => [("path", .text path)]
  | configIgnored path fault => [("path", .text path), ("error", .text fault.message)]
  | configSettled config =>
    [("extensions", .text (listText config.extensions.toList)),
      ("skip_dirs", .text (listText config.skipDirs.toList))]
  | directoryWalked directory files => [("dir", .text directory), ("files", .number files)]
  | walkBlocked directory path fault =>
    [("dir", .text directory),
      ("error",
        .text (path ++ ": IO error for operation on " ++ path ++ ": " ++ fault.message))]
  | alreadyQueued path | notSource path | inputNotFound path => [("path", .text path)]
  | signaturesExtracted path found added =>
    [("path", .text path), ("found", .number found), ("added", .number added)]
  | fileSkipped error => [("error", .text error.message)]
  | scanning inputs output => [("inputs", .number inputs), ("out", .text output)]
  | nothingFound files => [("files", .number files)]
  | stubWritten s =>
    [("files", .number s.filesScanned), ("skipped", .number s.filesSkipped),
      ("globals", .number s.globals), ("dot_methods", .number s.dotMethods),
      ("colon_methods", .number s.colonMethods), ("namespaces", .number s.tables)]

/-- The names that a log filter may ask for. The text of an event is among them, and so is the time
that a run took, which is no part of the line of an event. -/
def fieldNames (e : Event) : List String :=
  "message" :: e.fields.map Prod.fst ++
    match e with
    | stubWritten _ => ["time_ms"]
    | _ => []

/-- The part of the program that logs an event, as log filters name it. -/
def target : Event → String
  | configSettled _ => "luastub"
  | duplicateIgnored _ _ _ => "luastub_core::aggregate"
  | directoryWalked _ _ | walkBlocked _ _ _ | alreadyQueued _ | notSource _ | inputNotFound _ =>
    "luastub_core::scan"
  | _ => "luastub_core"

/-- The text of a value. -/
def Value.display : Value → String
  | text t => t
  | number n => toString n

/-- The line of a log for an event: the level, flush right in five columns, the text, the fields. -/
def line (e : Event) : String :=
  let level := String.ofList (List.replicate (5 - e.level.name.length) ' ') ++ e.level.name
  String.intercalate " " (level :: e.message :: e.fields.map fun f => f.1 ++ "=" ++ f.2.display)

end Event

end LuaDecl
