import LuaDecl.CommandLine.Outcome
import LuaDecl.Disk

/-!
# The program

The command line on the disk: it takes an image of what a run may look at, lets the run work on the
image, writes what changed, and prints. Events go to standard error, and so do faults.
-/

namespace LuaDecl.CommandLine

/-- The image of what a run with the given options may look at. -/
def image (options : Options) : IO FileSystem := do
  let directory ← Disk.workingDirectory
  let start := workingDirectoryPath directory
  let settings := options.config.getD (FileSystem.Path.join start ScanConfig.fileName)
  let image ← Disk.enterContent (← Disk.enterPath directory settings) settings
  let image ← Disk.enterPath (← options.inputs.foldlM Disk.enterTree image) options.output
  match (ScanConfig.load image options.config start).value with
  | .error _ => return image
  | .ok config =>
    let files := (Discovery.discover image config options.inputs).value
    files.foldlM Disk.enterContent image

/-- The image that a command with the given arguments works on. -/
def imageFor (arguments : List String) : IO FileSystem :=
  match read arguments with
  | .ok (.run options) => image options
  | _ => Disk.workingDirectory

/-- Prints what a command leaves behind. -/
def Outcome.print (o : Outcome) : IO Unit := do
  o.shown.forM fun event => IO.eprintln event.line
  match o.result with
  | .ok text => IO.print text
  | .error (.run error) => IO.eprintln ("Error: " ++ error.message)
  | .error (.usage error) => IO.eprintln ("error: " ++ error.message ++ "\n\n" ++ usageText)
  | .error .filter => IO.eprintln "the log filter breaks a character in two"

end LuaDecl.CommandLine

open LuaDecl

/-- Runs the command line. -/
def main (arguments : List String) : IO UInt32 := do
  let before ← CommandLine.imageFor arguments
  let outcome := CommandLine.run before arguments (← IO.getEnv "RUST_LOG")
  Disk.update before outcome.fileSystem
  outcome.print
  return outcome.exitCode.toUInt32
