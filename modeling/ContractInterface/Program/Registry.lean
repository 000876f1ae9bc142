import ContractInterface.Json.Writer
import ContractInterface.Program.CompileFile

/-!
# The registry

A registry is a directory with the documents of all contracts whose headers are in one directory.
Its documents do not record when they were made, so making it again changes nothing.
-/

namespace ContractInterface

/-- Where a registry comes from and where it goes. -/
structure Registry where
  contractDef : Path
  contractsDir : Path
  outputDir : Path
  sourceRepo : Option String
  sourceRevision : Option String
  generatorVersion : Option String
  deriving DecidableEq, Repr

namespace Registry

/-- The contract headers of a registry, by name. -/
def headers (r : Registry) (settings : CompilerSettings) (files : FileTree) :
    Except FileTree.Error (List String) := do
  let names ← (← files.list r.contractsDir).filterM fun name =>
    files.isFile (r.contractsDir.append name)
  return names.filter fun name => FileName.isContractHeader name settings.preludeHeader

/-- The text of a document. -/
def render (d : Document TypeDesc) : Run Text :=
  Run.ofExcept Failure.numeral (Json.render d.toJson)

/-- The options under which a header of a registry is compiled. -/
def options (r : Registry) (header : String) (index : Option Nat) (key : Option String) :
    CompileOptions :=
  { contractName := FileName.contractName (Path.ofString header)
    contractIndex := index.map Int.ofNat
    contractPublicKeyHex := key
    sourcePath := some ("contracts/" ++ header)
    sourceRepo := r.sourceRepo
    sourceRevision := r.sourceRevision
    generatorVersion := r.generatorVersion
    generatedAt := none }

/-- Compiles a header of a registry. -/
def compileHeader (r : Registry) (prelude : Text) (indices : Table Nat) (header : String) :
    Run (Document TypeDesc) := do
  let index := indices.get? header
  if index.isNone then Run.log .debug (header ++ " has no contract_def.h stanza")
  let key ← Run.ofExcept Failure.ofKeyRefusal (keyOf index)
  let text ← Run.readText (r.contractsDir.append header)
  compileText (r.options header index key) (withPrelude text (some prelude))

/-- The path of the document of a header. -/
def documentPath (r : Registry) (settings : CompilerSettings) (header : String) : Path :=
  r.outputDir.append
    (FileName.document (FileName.contractName (Path.ofString header)) settings.outputSuffix)

/-- Compiles a header of a registry and writes its document. -/
def addHeader (r : Registry) (settings : CompilerSettings) (prelude : Text)
    (indices : Table Nat) (header : String) : Run Path := do
  let document ← r.compileHeader prelude indices header
  modify fun w =>
    { w with
      progress :=
        (w.progress.countEntries document.entries.length).countWarnings
          document.warnings.length }
  let path := r.documentPath settings header
  Run.writeText path (← render document)
  Run.log .info ("[SUCCESS] " ++ path.toString ++ " (" ++ toString document.entries.length ++
    " entries)")
  return path

/-- Makes a registry under given settings and returns the paths of its documents, in the order of
the headers. -/
def build (r : Registry) (settings : CompilerSettings) : Run (List Path) := do
  let indices ← loadIndices r.contractDef
  let prelude ← Run.readText (r.contractsDir.append settings.preludeHeader)
  let names ← Run.ofExcept Failure.file (r.headers settings (← get).files)
  Run.log .info ("Compiling " ++ toString names.length ++ " contract headers from " ++
    r.contractsDir.toString)
  Run.ensureDirectory r.outputDir
  names.mapM fun name =>
    Run.within (·.enterHeader name) (r.addHeader settings prelude indices name)

/-- Makes a registry, with a record of its progress. -/
def generate (r : Registry) (settings : CompilerSettings) : Run (List Path) :=
  Run.timed "RegistryGenerator.generate" do
    modify fun w => { w with progress := Progress.start }
    let paths ← Run.within (·.enterOperation "compile-registry") (r.build settings)
    let w ← get
    Run.record (Progress.memoryUsage w.clock)
    Run.record (w.progress.summary w.clock)
    return paths

end Registry

end ContractInterface
