import ContractInterface.FileTree
import ContractInterface.Log.Basic

/-!
# Where records go

Records are shown on the console from a level on, and may also all be kept in a file, which is
named for the time at which it was opened.  Once set up, the destinations stay until they are
reset.
-/

namespace ContractInterface

/-- The destinations of records: none, or a console with its least level and possibly a file. -/
structure LogSetup where
  console : Option Level
  file : Option Path
  deriving DecidableEq, Repr

namespace LogSetup

/-- The state without destinations. -/
def none : LogSetup := ⟨.none, .none⟩

/-- Whether destinations have been set up. -/
def isReady (s : LogSetup) : Bool := s.console.isSome

/-- The least level of every destination. -/
def levels (s : LogSetup) : List Level :=
  s.console.toList ++ s.file.toList.map fun _ => .debug

/-- The path of a log file in a directory. -/
def filePath (clock : Clock) (directory : Path) : Path :=
  directory.append ("qbi_compiler_" ++ clock.fileStamp ++ ".log")

/-- The records with which the destinations are announced once they have been set up. -/
def announcement (s : LogSetup) : List LogRecord :=
  (s.file.toList.map fun path =>
    ⟨.debug, "Logging initialized. Log file: " ++ path.toString⟩) ++
    [⟨.debug, "Verbose mode: " ++ (if s.console = some .debug then "True" else "False")⟩]

/-- Sets the destinations up, unless they are; a log file needs its directory, which is
created. -/
def setUp (s : LogSetup) (clock : Clock) (directory : Path) (verbose toFile : Bool)
    (tree : FileTree) : Except FileTree.Error (LogSetup × FileTree) :=
  if s.isReady then .ok (s, tree)
  else
    let console := if verbose then Level.debug else Level.info
    if toFile then do
      let tree ← tree.ensureDirectory directory
      let file := filePath clock directory
      let tree ← tree.write file []
      return (⟨some console, some file⟩, tree)
    else .ok (⟨some console, .none⟩, tree)

end LogSetup

end ContractInterface
