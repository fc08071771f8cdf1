import LuaDecl.Text.Pieces

/-!
# Arguments

The arguments are read from left to right. A flag stands alone or in a cluster of letters; an option
takes a value, attached or as the next argument; all else is an input, and so is all that follows
two dashes. Help and version end the reading at once, so only what stands before them can be wrong.
-/

namespace LuaDecl.CommandLine

open Text

/-- What a run is asked to do. -/
structure Options where
  inputs : List String
  output : String
  config : Option String
  json : Bool
  verbosity : Nat
  deriving DecidableEq, Repr

/-- What the arguments ask for. -/
inductive Request where
  | help
  | version
  | run (options : Options)
  deriving DecidableEq, Repr

/-- A flag, which takes no value. -/
inductive Flag where
  | json
  | verbose
  | help
  | version
  deriving DecidableEq, Repr

/-- An option with a value. -/
inductive ValueOption where
  | output
  | config
  deriving DecidableEq, Repr

/-- What is wrong with the arguments. -/
inductive UsageError where
  | unknownArgument (argument : String)
  | missingValue (option : ValueOption)
  | emptyValue
  | surplusValue (argument : String)
  | repeated (argument : String)
  | missingInput
  | missingOutput
  deriving DecidableEq, Repr

/-- The text of a usage error. -/
def UsageError.message : UsageError → String
  | unknownArgument argument => "unexpected argument '" ++ argument ++ "' found"
  | missingValue .output => "a value is required for '--out <FILE>' but none was supplied"
  | missingValue .config => "a value is required for '--config <PATH>' but none was supplied"
  | emptyValue => "a value is required but an empty one was supplied"
  | surplusValue argument =>
    "unexpected value for '" ++ argument ++ "' found; no more were expected"
  | repeated argument => "the argument '" ++ argument ++ "' cannot be used multiple times"
  | missingInput => "the following required arguments were not provided: <INPUT>..."
  | missingOutput => "the following required arguments were not provided: --out <FILE>"

/-- What one argument, or one letter of a cluster, means. -/
inductive Mark where
  | input (text : String)
  | flag (flag : Flag)
  /-- An option, with its value if that is attached. -/
  | option (option : ValueOption) (value : Option String)
  | unknown (argument : String)
  | surplus (argument : String)
  /-- The two dashes after which all is input. -/
  | endOfOptions
  deriving DecidableEq, Repr

/-- The mark of an argument with two dashes, given its name and the value after an equal sign. -/
def longMark (name : String) (value : Option String) : Mark :=
  let alone (flag : Flag) : Mark :=
    match value with
    | none => .flag flag
    | some _ => .surplus ("--" ++ name)
  match name with
  | "out" => .option .output value
  | "config" => .option .config value
  | "json" => alone .json
  | "verbose" => alone .verbose
  | "help" => alone .help
  | "version" => alone .version
  | _ => .unknown ("--" ++ name)

/-- The marks of a cluster of letters. What follows the letter of an option is its value, less an
equal sign at its start. -/
def clusterMarks : List Char → List Mark
  | [] => []
  | 'v' :: rest => .flag .verbose :: clusterMarks rest
  | 'h' :: rest => .flag .help :: clusterMarks rest
  | 'V' :: rest => .flag .version :: clusterMarks rest
  | 'o' :: [] => [.option .output none]
  | 'o' :: '=' :: value => [.option .output (some (String.ofList value))]
  | 'o' :: value => [.option .output (some (String.ofList value))]
  | c :: _ => [.unknown (String.ofList ['-', c])]

/-- The marks of one argument. -/
def marks (argument : String) : List Mark :=
  match argument.toList with
  | ['-', '-'] => [.endOfOptions]
  | '-' :: '-' :: long =>
    match cut? ['='] long with
    | some (name, value) => [longMark (String.ofList name) (some (String.ofList value))]
    | none => [longMark (String.ofList long) none]
  | '-' :: c :: cluster => clusterMarks (c :: cluster)
  | _ => [.input argument]

/-- The argument cannot be the value of the option before it. -/
def looksLikeOption (argument : String) : Bool :=
  match argument.toList with
  | '-' :: _ :: _ => true
  | _ => false

/-- What is known of the options so far. -/
structure Draft where
  inputs : List String
  output : Option String
  config : Option String
  json : Bool
  verbosity : Nat
  deriving DecidableEq, Repr

namespace Draft

/-- Nothing is known yet. -/
def empty : Draft :=
  ⟨[], none, none, false, 0⟩

/-- The draft with an input added. -/
def addInput (d : Draft) (text : String) : Except UsageError Draft :=
  if text.isEmpty then .error .emptyValue else .ok { d with inputs := d.inputs ++ [text] }

/-- The draft with the value of an option set. -/
def setValue (d : Draft) (option : ValueOption) (value : String) : Except UsageError Draft :=
  if value.isEmpty then .error .emptyValue
  else
    match option with
    | .output =>
      if d.output.isSome then .error (.repeated "--out <FILE>")
      else .ok { d with output := some value }
    | .config =>
      if d.config.isSome then .error (.repeated "--config <PATH>")
      else .ok { d with config := some value }

/-- The options, if all that is required is there. -/
def finish (d : Draft) : Except UsageError Options :=
  match d.output with
  | none => .error .missingOutput
  | some output =>
    if d.inputs.isEmpty then .error .missingInput
    else .ok ⟨d.inputs, output, d.config, d.json, d.verbosity⟩

end Draft

/-- Where the reading stands after an argument. -/
inductive Progress where
  /-- The next argument is on its own. -/
  | going (draft : Draft)
  /-- The next argument is the value of an option. -/
  | awaiting (draft : Draft) (option : ValueOption)
  /-- All further arguments are inputs. -/
  | inputsOnly (draft : Draft)
  /-- No further argument counts. -/
  | finished (request : Request)

/-- Applies the marks of an argument in order. -/
def applyMarks (d : Draft) : List Mark → Except UsageError Progress
  | [] => .ok (.going d)
  | .input text :: rest => do applyMarks (← d.addInput text) rest
  | .flag .help :: _ => .ok (.finished .help)
  | .flag .version :: _ => .ok (.finished .version)
  | .flag .verbose :: rest => applyMarks { d with verbosity := d.verbosity + 1 } rest
  | .flag .json :: rest =>
    if d.json then .error (.repeated "--json") else applyMarks { d with json := true } rest
  | .option option (some value) :: rest => do applyMarks (← d.setValue option value) rest
  | .option option none :: _ => .ok (.awaiting d option)
  | .unknown argument :: _ => .error (.unknownArgument argument)
  | .surplus argument :: _ => .error (.surplusValue argument)
  | .endOfOptions :: _ => .ok (.inputsOnly d)

/-- Reads arguments into a draft. -/
def readFrom (d : Draft) : List String → Except UsageError Request
  | [] => do return .run (← d.finish)
  | argument :: rest => do
    match ← applyMarks d (marks argument) with
    | .finished request => return request
    | .going d => readFrom d rest
    | .inputsOnly d => return .run (← (← rest.foldlM Draft.addInput d).finish)
    | .awaiting d option =>
      match rest with
      | [] => .error (.missingValue option)
      | value :: rest =>
        if looksLikeOption value then .error (.missingValue option)
        else readFrom (← d.setValue option value) rest

/-- What the arguments of a command line ask for. -/
def read (arguments : List String) : Except UsageError Request :=
  readFrom Draft.empty arguments

end LuaDecl.CommandLine
