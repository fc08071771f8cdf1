import LuaDecl.CommandLine.Arguments
import LuaDecl.CommandLine.Help
import LuaDecl.CommandLine.LogFilter
import LuaDecl.Generation
import LuaDecl.ScanConfig.Loading

/-!
# The command

A command line reads its arguments, loads the configuration, generates the stub file and prints the
summary. Exit code 0 is success, 1 an error of the run, 2 an error in the arguments, and 101 a log
filter that cannot be read at all.
-/

namespace LuaDecl.CommandLine

/-- What goes wrong with a command. -/
inductive Failure where
  | usage (error : UsageError)
  /-- The log filter from the environment breaks a character in two. -/
  | filter
  | run (error : RunError)
  deriving DecidableEq, Repr

/-- What a command leaves behind: the text on its standard output or its failure, the events that
the log shows, and the file system. -/
structure Outcome where
  result : Except Failure String
  shown : List Event
  fileSystem : FileSystem

namespace Outcome

/-- The exit code. -/
def exitCode (o : Outcome) : Nat :=
  match o.result with
  | .ok _ => 0
  | .error (.run _) => 1
  | .error (.usage _) => 2
  | .error .filter => 101

/-- The text on standard output. -/
def output (o : Outcome) : String :=
  match o.result with
  | .ok text => text
  | .error _ => ""

/-- The error of the run, as it is printed. -/
def errorText? (o : Outcome) : Option String :=
  match o.result with
  | .error (.run error) => some ("Error: " ++ error.message)
  | _ => none

end Outcome

/-- The path of the working directory. -/
def workingDirectoryPath (fs : FileSystem) : String :=
  fs.workingDirectory.foldl FileSystem.Path.join "/"

/-- Loads the configuration and generates the stub file. -/
def runOptions (fs : FileSystem) (options : Options) :
    Logged (FileSystem × Except RunError Summary) := do
  match ← ScanConfig.load fs options.config (workingDirectoryPath fs) with
  | .error error => return (fs, .error error)
  | .ok config =>
    Logged.log (.configSettled config)
    Generation.generate fs config options.inputs options.output

/-- The text that reports a summary, with the end of its line. -/
def summaryText (json : Bool) (summary : Summary) : String :=
  (if json then summary.json else summary.line) ++ "\n"

/-- The outcome of a command with the given arguments and log filter from the environment. -/
def run (fs : FileSystem) (arguments : List String) (environment : Option String) : Outcome :=
  match read arguments with
  | .error error => ⟨.error (.usage error), [], fs⟩
  | .ok .help => ⟨.ok helpText, [], fs⟩
  | .ok .version => ⟨.ok versionText, [], fs⟩
  | .ok (.run options) =>
    match LogFilter.choose? options.verbosity environment with
    | none => ⟨.error .filter, [], fs⟩
    | some filter =>
      let ran := runOptions fs options
      { result := match ran.value.2 with
          | .ok summary => .ok (summaryText options.json summary)
          | .error error => .error (.run error)
        shown := ran.events.filter filter.shows
        fileSystem := ran.value.1 }

end LuaDecl.CommandLine
