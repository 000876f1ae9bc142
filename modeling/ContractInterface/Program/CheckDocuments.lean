import ContractInterface.Document.Validate
import ContractInterface.Json.Reader
import ContractInterface.Program.World

/-!
# Checking documents

The documents of a directory, or a single one, are read and validated.  All errors of all
documents are told, each with the path of its document, before the number of errors.
-/

namespace ContractInterface.Check

/-- What is to be checked. -/
inductive Target where
  | file (path : Path)
  | directory (path : Path)
  deriving DecidableEq, Repr

/-- The files of a directory whose names end like those of documents, by name. -/
def documents (tree : FileTree) (suffix : String) (directory : Path) :
    Except FileTree.Error (List Path) := do
  let files ← (← tree.list directory).filterM fun name => tree.isFile (directory.append name)
  let names := files.filter fun name => (Text.dropSuffix? suffix.toList name.toList).isSome
  return names.map directory.append

/-- The documents of a target. -/
def Target.documents (suffix : String) (tree : FileTree) :
    Target → Except FileTree.Error (List Path)
  | .file path => .ok [path]
  | .directory path => Check.documents tree suffix path

/-- What the check of a document finds. -/
structure Findings where
  /-- The notes on what was not checked. -/
  notes : List String
  errors : List String
  deriving DecidableEq, Repr

/-- What the check of a text finds that should be a document. -/
def findings (t : Text) : Except Numeral.Error Findings :=
  match Json.readText t with
  | .ok v => do return ⟨Document.skippedSizes v, ← Document.validate v⟩
  | .error (.numeral cause) => .error cause
  | .error (.complaint cause left) =>
    .ok ⟨[], ["invalid JSON (" ++ Json.describe t cause left ++ ")"]⟩

/-- The errors of the document at a path. -/
def documentErrors (path : Path) : Run (List String) := do
  let text ← Run.readText path
  let found ← Run.ofExcept Failure.numeral (findings text)
  found.notes.forM (Run.log .debug)
  return found.errors.map fun e => path.toString ++ ": " ++ e

/-- Checks the documents of a target and tells the errors; returns their number. -/
def run (target : Target) : Run Nat := do
  let suffix := (← Run.settings).outputSuffix
  let paths ← Run.ofExcept Failure.file (target.documents suffix (← get).files)
  let errors := (← paths.mapM documentErrors).flatten
  errors.forM Run.tell
  Run.log .info ("Validated " ++ toString paths.length ++ " document(s), " ++
    toString errors.length ++ " error(s)")
  return errors.length

end ContractInterface.Check
