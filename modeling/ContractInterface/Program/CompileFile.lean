import ContractInterface.FileName
import ContractInterface.Program.World
import ContractInterface.Stanza

/-!
# Compiling a header file

A header is compiled together with the shared prelude, whose text is put in front of it.  The
index of the contract, and with it its key, comes from the list of contracts.
-/

namespace ContractInterface

/-- The text of a header after that of the prelude. -/
def withPrelude (source : Text) : Option Text → Text
  | some prelude => prelude ++ '\n' :: source
  | none => source

/-- The contract indices by header in the list of contracts at a path. -/
def loadIndices (list : Path) : Run (Table Nat) := do
  let text ← Run.readText list
  let stanzas ← Run.ofExcept Failure.numeral (Stanza.all text)
  Run.log .debug (list.toString ++ ": " ++ toString stanzas.length ++ " contract stanzas")
  return Stanza.indexTable stanzas

/-- The key of a contract whose index is known. -/
def keyOf (index : Option Nat) : Except PublicKey.Refusal (Option String) :=
  match index with
  | none => .ok none
  | some n => some <$> PublicKey.ofJson (.int n)

/-- Compiles a header; a notice tells that there are warnings. -/
def compileText (options : CompileOptions) (source : Text) : Run (Document TypeDesc) :=
  Run.timed "HeaderCompiler.compile" do
    let seed := (← Run.settings).seed
    let outline ← Run.ofExcept Failure.numeral (Header.outline seed source)
    Run.log .debug (options.contractName ++ ": " ++ outline.summary)
    let (document, memo) ← Run.ofExcept Failure.resolve (outline.compile options)
    Run.log .debug (options.contractName ++ ": struct cache " ++ memo.toJson.display)
    if let some notice := document.notice? then Run.log .warning notice
    return document

/-- The index of a header in the list of contracts at a path; it is missed with a warning. -/
def lookUpIndex (header : Path) : Option Path → Run (Option Nat)
  | none => return none
  | some list => do
    let index := (← loadIndices list).get? header.name
    if index.isNone then
      Run.log .warning (header.name ++ " is not registered in " ++ list.toString)
    return index

/-- Compiles the header at a path. -/
def compileFile (header : Path) (prelude contractDef : Option Path)
    (generatorVersion : Option String) : Run (Document TypeDesc) := do
  let preludeText ← prelude.mapM Run.readText
  let source := withPrelude (← Run.readText header) preludeText
  let index ← lookUpIndex header contractDef
  let key ← Run.ofExcept Failure.ofKeyRefusal (keyOf index)
  let settings ← Run.settings
  let clock := (← get).clock
  compileText
    { contractName := FileName.contractName header
      contractIndex := index.map Int.ofNat
      contractPublicKeyHex := key
      sourcePath := some header.toString
      sourceRepo := none
      sourceRevision := none
      generatorVersion
      generatedAt := if settings.includeGeneratedAt then some clock.timestamp else none }
    source

end ContractInterface
