import LuaDecl.Discovery
import LuaDecl.FileSystem.Access
import LuaDecl.Stub
import LuaDecl.Text.Utf8

/-!
# Generating a stub file

A run discovers the sources, collects their signatures in order, and writes the stub file. A source
that cannot be read is skipped, so a run fails only if its output cannot be written.
-/

namespace LuaDecl.Generation

/-- The text of a source, without the bytes that are no UTF-8. -/
def readSource (fs : FileSystem) (path : String) : Except RunError String :=
  match fs.read path with
  | .ok bytes => .ok (Text.Utf8.decodeLossy bytes)
  | .error fault => .error (.read path fault)

/-- A source that cannot be read does not end a run. -/
theorem isRecoverable_of_readSource {fs : FileSystem} {path : String} {error : RunError}
    (fails : readSource fs path = .error error) : error.isRecoverable = true := by
  unfold readSource at fails
  split at fails
  · cases fails
  · exact Except.error.inj fails ▸ rfl

/-- The catalog with the signatures of sources added in order, and the number of sources skipped,
added to those before. A source is skipped after an error that the run goes on from; any other error
ends the run. -/
def collectFrom (fs : FileSystem) (c : Catalog) (skipped : Nat) :
    List String → Logged (Except RunError (Catalog × Nat))
  | [] => pure (.ok (c, skipped))
  | path :: rest => do
    match readSource fs path with
    | .ok source =>
      let extraction := Extraction.ofSource source
      let (c, added) ← c.merge extraction
      Logged.log (.signaturesExtracted path extraction.signatures.length added)
      collectFrom fs c skipped rest
    | .error error =>
      if error.isRecoverable then
        Logged.log (.fileSkipped error)
        collectFrom fs c (skipped + 1) rest
      else return .error error

/-- The catalog of sources, and the number of those that were skipped. -/
def collect (fs : FileSystem) (files : List String) : Logged (Except RunError (Catalog × Nat)) :=
  collectFrom fs Catalog.empty 0 files

theorem collectFrom_of_ok {fs : FileSystem} {path source : String}
    (readable : readSource fs path = .ok source) (c : Catalog) (skipped : Nat)
    (rest : List String) :
    let extraction := Extraction.ofSource source
    collectFrom fs c skipped (path :: rest) =
      (do
        let (c, added) ← c.merge extraction
        Logged.log (.signaturesExtracted path extraction.signatures.length added)
        collectFrom fs c skipped rest) := by
  simp only [collectFrom, readable]

theorem collectFrom_of_error {fs : FileSystem} {path : String} {error : RunError}
    (fails : readSource fs path = .error error) (c : Catalog) (skipped : Nat)
    (rest : List String) :
    collectFrom fs c skipped (path :: rest) =
      (do
        Logged.log (.fileSkipped error)
        collectFrom fs c (skipped + 1) rest) := by
  simp only [collectFrom, fails, isRecoverable_of_readSource fails, if_true]

/-- No error ends the collection: reading a source fails only with errors that the run goes on from.
-/
theorem isSome_value_collect (fs : FileSystem) (files : List String) :
    (collect fs files).value.toOption.isSome = true := by
  have goesOn (c : Catalog) (skipped : Nat) :
      (collectFrom fs c skipped files).value.toOption.isSome = true := by
    induction files generalizing c skipped with
    | nil => rfl
    | cons path rest ih =>
      cases readable : readSource fs path with
      | ok source =>
        rw [collectFrom_of_ok readable]
        exact ih _ _
      | error error =>
        rw [collectFrom_of_error readable]
        exact ih _ _
  exact goesOn Catalog.empty 0

/-- The outcome of a collection, which no error ends. -/
def index (fs : FileSystem) (files : List String) : Logged (Catalog × Nat) where
  value := (collect fs files).value.toOption.get (isSome_value_collect fs files)
  events := (collect fs files).events

theorem value_collect_eq_index (fs : FileSystem) (files : List String) :
    (collect fs files).value = .ok (index fs files).value := by
  have known : some (index fs files).value = (collect fs files).value.toOption := Option.some_get _
  cases result : (collect fs files).value with
  | error error =>
    rw [result] at known
    cases known
  | ok outcome =>
    rw [result] at known
    exact congrArg Except.ok (Option.some.inj known).symm

/-- Makes the directory that a path is in, with all that is missing above it. -/
def makeParent (fs : FileSystem) (path : String) : FileSystem × Except RunError Unit :=
  match FileSystem.Path.parent? path with
  | none => (fs, .ok ())
  | some parent =>
    if parent.isEmpty then (fs, .ok ())
    else
      match fs.makeDirectories parent with
      | (fs, .ok ()) => (fs, .ok ())
      | (fs, .error fault) => (fs, .error (.createDirectory parent fault))

/-- Writes a text to a path, after making the directories above it. -/
def writeFile (fs : FileSystem) (path text : String) : FileSystem × Except RunError Unit :=
  match makeParent fs path with
  | (fs, .error error) => (fs, .error error)
  | (fs, .ok ()) =>
    match fs.write path text.toUTF8 with
    | (fs, .ok ()) => (fs, .ok ())
    | (fs, .error fault) => (fs, .error (.write path fault))

/-- The whole run: the file system after it, and the summary or the error that ended it. -/
def generate (fs : FileSystem) (config : ScanConfig) (inputs : List String) (output : String) :
    Logged (FileSystem × Except RunError Summary) := do
  Logged.log (.scanning inputs.length output)
  let files ← Discovery.discover fs config inputs
  match ← collect fs files with
  | .error error => return (fs, .error error)
  | .ok (c, skipped) =>
    Logged.logIf c.isEmpty (.nothingFound files.length)
    match writeFile fs output (Stub.render c) with
    | (fs, .error error) => return (fs, .error error)
    | (fs, .ok ()) =>
      let summary := c.summary output (files.length - skipped) skipped
      Logged.log (.stubWritten summary)
      return (fs, .ok summary)

end LuaDecl.Generation
