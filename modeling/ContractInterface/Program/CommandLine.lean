import ContractInterface.Log.Setup
import ContractInterface.Program.Arguments
import ContractInterface.Program.Registry

/-!
# The program

The program compiles a header, makes a registry, or checks documents.  It reads its configuration
from the environment, from an environment file in the working directory and from its arguments;
what it does is told on the console, and a run that makes a registry keeps a log file.
-/

namespace ContractInterface.CommandLine

/-- The version of the program in documents. -/
def version : String := "0.1.0"

/-- What a run of the program leaves behind. -/
structure Outcome where
  exitCode : Nat
  /-- What was written to the standard output. -/
  output : Text
  /-- What was shown on the console. -/
  console : List String
  files : FileTree
  deriving Repr

/-- The values that a command gives to the configuration. -/
def Invocation.overrides (i : Invocation) : Config.Overrides :=
  let verbose := if i.verbose then some true else none
  match i.command with
  | .compile _ _ prelude contractDef =>
    ⟨none, contractDef, prelude, none, verbose, none, none⟩
  | .compileRegistry contractDef contractsDir out sourceRepo sourceRevision =>
    ⟨contractsDir, contractDef, none, out, verbose, sourceRepo, sourceRevision⟩
  | .validate _ => ⟨none, none, none, none, verbose, none, none⟩

/-- The paths that a run looks at or writes to, from its arguments and its configuration. -/
def Invocation.paths (i : Invocation) (config : Config) : List Path :=
  let named :=
    match i.command with
    | .compile contract out _ _ => contract :: out.toList
    | .compileRegistry .. => []
    | .validate (.file path) => [path]
    | .validate (.directory path) => [path]
  named ++ config.contractsDir.toList ++ config.contractDef.toList ++ config.prelude.toList ++
    [config.outputDir, config.logDir]

/-! ### Commands -/

/-- Compiles a header and writes its document to a file, or to the standard output. -/
def runCompile (config : Config) (contract : Path) (out : Option Path) : Run Text := do
  let document ← compileFile contract config.prelude config.contractDef (some version)
  let text ← Registry.render document
  match out with
  | none => return text
  | some path =>
    Run.ensureDirectory path.parent
    Run.writeText path text
    Run.log .info ("[SUCCESS] Generated: " ++ path.toString ++ " (" ++
      toString document.entries.length ++ " entries)")
    return []

/-- Makes a registry. -/
def runRegistry (config : Config) : Run Unit := do
  match config.contractDef, config.contractsDir with
  | some contractDef, some contractsDir =>
    let registry : Registry :=
      { contractDef, contractsDir
        outputDir := config.outputDir
        sourceRepo := config.sourceRepo
        sourceRevision := config.sourceRevision
        generatorVersion := some version }
    let _ ← registry.generate (← Run.settings)
  | _, _ =>
    throw (.missingArguments "compile-registry requires --contract-def and --contracts-dir")

/-- Runs a command; gives the exit code and what goes to the standard output. -/
def Command.run (config : Config) : Command → Run (Nat × Text)
  | .compile contract out _ _ => do return (0, ← runCompile config contract out)
  | .compileRegistry .. => do
    runRegistry config
    return (0, [])
  | .validate target => do return (if (← Check.run target) = 0 then 0 else 1, [])

/-- Runs a command; a failure is told and gives the exit code 1. -/
def Command.runSafely (config : Config) (c : Command) (w : World) : (Nat × Text) × World :=
  match StateT.run (ExceptT.run (c.run config)) w with
  | (.ok result, w) => (result, w)
  | (.error e, w) =>
    let told := Event.record ⟨.error, "Fatal error during " ++ c.name ++ ": " ++ e.message⟩
    ((1, []), { w with events := w.events ++ [told] })

/-! ### The whole program -/

/-- The environment file in the working directory. -/
def environmentFile : Path := Path.ofString ".env"

/-- The text of a log file: a line for every record. -/
def logText (events : List Event) : Text :=
  (events.filterMap fun
    | .record r => some (r.line.toList ++ ['\n'])
    | .line _ => none).flatten

/-- Puts the records of a run into its log file. -/
def keepLog (setup : LogSetup) (w : World) : FileTree :=
  match setup.file with
  | none => w.files
  | some path =>
    match w.files.write path (Utf8.encode (logText w.events)) with
    | .ok files => files
    | .error _ => w.files

/-- A run before its command: the environment after the environment file, the notices about the
file and the configuration. -/
structure Prepared where
  environment : Table String
  notices : List String
  config : Config
  deriving Repr

/-- Prepares a run: reads the environment file and puts the configuration together. -/
def Invocation.prepare (i : Invocation) (files : FileTree) (environment : Table String) :
    Except Failure Prepared := do
  let (environment, notices) ←
    (loadEnvironment files environment environmentFile).mapError Failure.ofLoadError
  return ⟨environment, notices, (Config.ofEnvironment environment).override i.overrides⟩

/-- Runs what the arguments ask for.  Only an environment file that cannot be loaded, a path that
cannot be looked at and a log file that cannot be opened make the program itself fail. -/
def Invocation.run (i : Invocation) (w : World) : Except Failure Outcome := do
  let ⟨environment, notices, config⟩ ← i.prepare w.files w.environment
  match ← (config.error? w.files).mapError Failure.file with
  | some e => return ⟨1, [], notices ++ ["Configuration error: " ++ e.message], w.files⟩
  | none =>
    let toFile := i.command.name == "compile-registry"
    let (setup, files) ←
      (LogSetup.none.setUp w.clock config.logDir config.verbose toFile w.files).mapError
        Failure.file
    let started := setup.announcement ++ [⟨.debug, "Command: " ++ i.command.name⟩]
    let events := w.events ++ notices.map .line ++ started.map .record
    let ((exitCode, output), w) :=
      i.command.runSafely config { w with files, environment, events }
    return { exitCode, output
             console := w.events.filterMap (Event.shown? (setup.console.getD .info))
             files := keepLog setup w }

/-- Runs the program with its arguments. -/
def run (args : List String) (w : World) : Except Failure Outcome :=
  match parse args with
  | .error .help => .ok ⟨0, (Stop.message .help).toList ++ ['\n'], [], w.files⟩
  | .error stop => .ok ⟨2, [], [stop.message], w.files⟩
  | .ok i => i.run w

end ContractInterface.CommandLine
