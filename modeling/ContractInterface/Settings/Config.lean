import ContractInterface.FileTree
import ContractInterface.Settings.Compiler
import ContractInterface.Settings.EnvFile

/-!
# Configuration of a run

Where a run finds its input and puts its output is configured by environment variables, which an
environment file may add to, and by arguments, which win over both.
-/

namespace ContractInterface

/-- The configuration of a run. -/
structure Config where
  contractsDir : Option Path
  contractDef : Option Path
  prelude : Option Path
  outputDir : Path
  verbose : Bool
  logDir : Path
  sourceRepo : Option String
  sourceRevision : Option String
  deriving DecidableEq, Repr

namespace Config

/-- The value of a variable, unless it is missing or empty. -/
def nonEmpty? (environment : Table String) (name : String) : Option String :=
  (environment.get? name).filter fun value => !value.isEmpty

/-- The variables that configure a run. -/
def variableNames : List String :=
  ["QBI_CONTRACTS_DIR", "QBI_CONTRACT_DEF", "QBI_QPI_PATH", "QBI_OUTPUT_DIR", "QBI_VERBOSE",
    "QBI_LOG_DIR", "QBI_SOURCE_REPO", "QBI_SOURCE_REVISION"]

/-- The configuration in an environment. -/
def ofEnvironment (environment : Table String) : Config :=
  { contractsDir := (nonEmpty? environment "QBI_CONTRACTS_DIR").map Path.ofString
    contractDef := (nonEmpty? environment "QBI_CONTRACT_DEF").map Path.ofString
    prelude := (nonEmpty? environment "QBI_QPI_PATH").map Path.ofString
    outputDir := Path.ofString ((environment.get? "QBI_OUTPUT_DIR").getD "registry")
    verbose :=
      CompilerSettings.isOneOf ["true", "1", "yes"]
        ((environment.get? "QBI_VERBOSE").getD "false")
    logDir := Path.ofString ((environment.get? "QBI_LOG_DIR").getD "logs")
    sourceRepo := nonEmpty? environment "QBI_SOURCE_REPO"
    sourceRevision := nonEmpty? environment "QBI_SOURCE_REVISION" }

/-- The part of a configuration that arguments give. -/
structure Overrides where
  contractsDir : Option Path
  contractDef : Option Path
  prelude : Option Path
  outputDir : Option Path
  verbose : Option Bool
  sourceRepo : Option String
  sourceRevision : Option String
  deriving DecidableEq, Repr

/-- A configuration with the values that arguments give. -/
def override (c : Config) (o : Overrides) : Config :=
  { c with
    contractsDir := o.contractsDir <|> c.contractsDir
    contractDef := o.contractDef <|> c.contractDef
    prelude := o.prelude <|> c.prelude
    outputDir := o.outputDir.getD c.outputDir
    verbose := o.verbose.getD c.verbose
    sourceRepo := o.sourceRepo <|> c.sourceRepo
    sourceRevision := o.sourceRevision <|> c.sourceRevision }

/-! ### Validity -/

/-- What is wrong with a configuration. -/
inductive Error where
  | noContractsDir (path : Path)
  | noInput (label : String) (path : Path)
  | notAFile (path : Path)
  deriving DecidableEq, Repr

/-- The wording of a configuration error. -/
def Error.message : Error → String
  | .noContractsDir path => "Contracts directory not found: " ++ path.toString
  | .noInput label path => label ++ " not found: " ++ path.toString
  | .notAFile path => "Not a file: " ++ path.toString

/-- What is wrong with the directory of the headers. -/
def contractsDirError? (tree : FileTree) : Option Path → Except FileTree.Error (Option Error)
  | none => return none
  | some path => do
    return if ← tree.isDirectory path then none else some (.noContractsDir path)

/-- What is wrong with an input, which must be a file. -/
def inputError? (tree : FileTree) (label : String) :
    Option Path → Except FileTree.Error (Option Error)
  | none => return none
  | some path => do
    if !(← tree.doesExist path) then return some (.noInput label path)
    else if !(← tree.isFile path) then return some (.notAFile path)
    else return none

/-- The first thing that is wrong with a configuration: what is configured as input must be
there.  Fails if a path cannot be looked at. -/
def error? (tree : FileTree) (c : Config) : Except FileTree.Error (Option Error) := do
  if let some e ← contractsDirError? tree c.contractsDir then return some e
  if let some e ← inputError? tree "contract_def.h" c.contractDef then return some e
  inputError? tree "qpi.h" c.prelude

end Config

/-! ### Files as text -/

/-- Why a file cannot be read as text. -/
inductive ReadError where
  | file (cause : FileTree.Error)
  | encoding (cause : Utf8.Error)
  deriving DecidableEq, Repr

/-- The wording of an error in reading a file. -/
def ReadError.message : ReadError → String
  | .file cause => cause.message
  | .encoding cause => cause.message

/-- The text of a file, with line feeds for all line ends. -/
def FileTree.readText (tree : FileTree) (p : Path) : Except ReadError Text := do
  let bytes ← (tree.read p).mapError .file
  let text ← (Utf8.decode bytes).mapError .encoding
  return Text.unifyNewlines text

/-- Why an environment file cannot be loaded. -/
inductive LoadError where
  | read (cause : ReadError)
  | assignment (cause : EnvFile.Error)
  deriving DecidableEq, Repr

/-- The environment after an environment file has been loaded, if it is a file and loading is not
turned off, with the notices about it. -/
def loadEnvironment (tree : FileTree) (environment : Table String) (p : Path) :
    Except LoadError (Table String × List String) := do
  if (← (tree.isFile p).mapError fun e => .read (.file e)) && !EnvFile.isDisabled environment then
    let text ← (tree.readText p).mapError .read
    return (← (EnvFile.load environment text).mapError .assignment, EnvFile.notices text)
  else return (environment, [])

end ContractInterface
