import ContractInterface.Header.Compile
import ContractInterface.Log.Progress
import ContractInterface.PublicKey
import ContractInterface.Settings.Config

/-!
# The world of a run

A run reads and writes files, looks at its environment, keeps a log and counts its progress.  All
of that is one value, which a run changes also when it fails.
-/

namespace ContractInterface

/-- Everything that a run can see and change. -/
structure World where
  files : FileTree
  environment : Table String
  clock : Clock
  /-- What the run has told so far. -/
  events : List Event
  progress : Progress
  deriving Repr

/-- Why a run fails. -/
inductive Failure where
  | file (cause : FileTree.Error)
  | encoding (cause : Utf8.Error)
  | assignment (cause : EnvFile.Error)
  | resolve (cause : Header.ResolveError)
  | numeral (cause : Numeral.Error)
  | index (cause : PublicKey.IndexError)
  /-- An argument that the command needs is missing. -/
  | missingArguments (message : String)
  deriving DecidableEq, Repr

/-- The wording of a failure. -/
def Failure.message : Failure → String
  | .file cause => cause.message
  | .encoding cause => cause.message
  | .assignment cause => cause.message
  | .resolve cause => cause.message
  | .numeral cause => cause.message
  | .index cause => cause.message
  | .missingArguments message => message

/-- The failure to read a file. -/
def Failure.ofReadError : ReadError → Failure
  | .file cause => .file cause
  | .encoding cause => .encoding cause

/-- The failure to find the key of a contract. -/
def Failure.ofKeyRefusal : PublicKey.Refusal → Failure
  | .index cause => .index cause
  | .numeral cause => .numeral cause

/-- The failure to load an environment file. -/
def Failure.ofLoadError : LoadError → Failure
  | .read cause => ofReadError cause
  | .assignment cause => .assignment cause

/-- A part of a run. -/
abbrev Run (α : Type) := ExceptT Failure (StateM World) α

namespace Run

variable {α : Type}

/-- A computation that may fail, in terms of a run. -/
def ofExcept {ε : Type} (failure : ε → Failure) (x : Except ε α) : Run α :=
  match x with
  | .ok a => pure a
  | .error e => throw (failure e)

/-- Adds a record to the log. -/
def record (r : LogRecord) : Run Unit :=
  modify fun w => { w with events := w.events ++ [.record r] }

/-- Adds a record of a level to the log. -/
def log (level : Level) (message : String) : Run Unit :=
  record ⟨level, message⟩

/-- Shows a line on the console. -/
def tell (text : String) : Run Unit :=
  modify fun w => { w with events := w.events ++ [.line text] }

/-- The settings of the compiler in the environment of a run. -/
def settings : Run CompilerSettings := do
  return CompilerSettings.ofEnvironment (← get).environment

/-- Reads a file as text. -/
def readText (p : Path) : Run Text := do
  ofExcept Failure.ofReadError ((← get).files.readText p)

/-- Changes the files. -/
def changeFiles (f : FileTree → Except FileTree.Error FileTree) : Run Unit := do
  let files ← ofExcept Failure.file (f (← get).files)
  modify fun w => { w with files }

/-- Writes a text to a file. -/
def writeText (p : Path) (t : Text) : Run Unit :=
  changeFiles fun files => files.write p (Utf8.encode t)

/-- Makes sure that a directory is there; what was created on the way to it stays also when that
fails. -/
def ensureDirectory (p : Path) : Run Unit := do
  let (result, files) := (← get).files.makeDirectories p
  modify fun w => { w with files }
  ofExcept Failure.file result

/-- Runs a part and then does something that depends on how it ended. -/
def afterwards (x : Run α) (after : Option String → World → World) : Run α := fun w =>
  match StateT.run (ExceptT.run x) w with
  | (.ok a, w) => (.ok a, after none w)
  | (.error e, w) => (.error e, after (some e.message) w)

/-- Records the start and the end of a named step. -/
def timed (step : String) (x : Run α) : Run α := do
  record (.started step)
  afterwards x fun failure w =>
    let ending :=
      match failure with
      | none => LogRecord.completed w.clock step
      | some message => LogRecord.failed w.clock step message
    { w with events := w.events ++ [.record ending] }

/-- Runs a part between entering and leaving a frame of the progress. -/
def within (enter : Progress → Progress.Frame × Progress × LogRecord) (x : Run α) : Run α := do
  let (frame, progress, entered) := enter (← get).progress
  modify fun w => { w with progress, events := w.events ++ [.record entered] }
  afterwards x fun failure w =>
    let (progress, left) := w.progress.leave w.clock frame failure
    { w with progress, events := w.events ++ [.record left] }

end Run

end ContractInterface
