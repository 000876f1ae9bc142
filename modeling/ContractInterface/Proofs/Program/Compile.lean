import ContractInterface.Program.Registry
import ContractInterface.Proofs.Program.Outcome

/-!
# Compiling as a function of the files

Compiling a header leaves the files alone, and its result depends only on the files, the
environment and, where the time is recorded, on the clock.  So it is given by functions without a
run.  The options of a compilation decide what a document says about the contract and about its
own provenance, and nothing else.
-/

namespace ContractInterface

open Run

/-! ### Reading and compiling -/

/-- The contract indices by header in the list of contracts at a path. -/
def indicesIn (files : FileTree) (list : Path) : Except Failure (Table Nat) := do
  let text ← (files.readText list).mapError Failure.ofReadError
  let stanzas ← (Stanza.all text).mapError Failure.numeral
  return Stanza.indexTable stanzas

theorem ends_loadIndices (list : Path) (w : World) :
  Ends (loadIndices list) w (indicesIn w.files list) w.files
  := by
  apply Ends.bind (Ends.readText list)
  intro text
  apply Ends.bind (Ends.ofExcept Failure.numeral _)
  intro stanzas
  apply Ends.bind_ok (Ends.record _)
  apply Ends.pure

/-- The document of a header under options. -/
def documentOf (settings : CompilerSettings) (options : CompileOptions) (source : Text) :
    Except Failure (Document TypeDesc) := do
  let outline ← (Header.outline settings.seed source).mapError Failure.numeral
  let (document, _) ← (outline.compile options).mapError Failure.resolve
  return document

theorem ends_compileText (options : CompileOptions) (source : Text) (w : World) :
  Ends (compileText options source) w
    (documentOf (CompilerSettings.ofEnvironment w.environment) options source) w.files
  := by
  apply Ends.timed
  apply Ends.bind_ok Ends.settings
  apply Ends.bind (Ends.ofExcept Failure.numeral _)
  intro outline
  apply Ends.bind_ok (Ends.record _)
  apply Ends.bind (Ends.ofExcept Failure.resolve _)
  rintro ⟨document, memo⟩
  apply Ends.bind_ok (Ends.record _)
  dsimp only
  cases document.notice? with
  | none => apply Ends.pure
  | some notice =>
      apply Ends.bind_ok (Ends.record _)
      apply Ends.pure

theorem documentOf_of_outcome {options : CompileOptions} {source : Text} {w w' : World}
    {d : Document TypeDesc} (h : (compileText options source).outcome w = (.ok d, w')) :
  documentOf (CompilerSettings.ofEnvironment w.environment) options source = .ok d
  := by
  rw [← (ends_compileText options source w).result, h]

/-- The document of a header of a registry, compiled from given files. -/
def Registry.documentIn (r : Registry) (environment : Table String) (files : FileTree)
    (prelude : Text) (indices : Table Nat) (header : String) :
    Except Failure (Document TypeDesc) := do
  let key ← (keyOf (indices.get? header)).mapError Failure.ofKeyRefusal
  let text ← (files.readText (r.contractsDir.append header)).mapError Failure.ofReadError
  documentOf (CompilerSettings.ofEnvironment environment)
    (r.options header (indices.get? header) key) (withPrelude text (some prelude))

theorem Registry.ends_compileHeader (r : Registry) (prelude : Text) (indices : Table Nat)
    (header : String) (w : World) :
  Ends (r.compileHeader prelude indices header) w
    (r.documentIn w.environment w.files prelude indices header) w.files
  := by
  unfold Registry.compileHeader
  have hrest : Ends (do
      let key ← ofExcept Failure.ofKeyRefusal (keyOf (indices.get? header))
      let text ← readText (r.contractsDir.append header)
      compileText (r.options header (indices.get? header) key)
        (withPrelude text (some prelude)))
      w (r.documentIn w.environment w.files prelude indices header) w.files := by
    apply Ends.bind (Ends.ofExcept Failure.ofKeyRefusal _)
    intro key
    apply Ends.bind (Ends.readText _)
    intro text
    apply ends_compileText
  dsimp only
  split_ifs with hmissing
  · apply Ends.bind_ok (Ends.record _) hrest
  · exact hrest

/-- The document of the header at a path, compiled from given files with a prelude and a list of
contracts. -/
def fileDocumentIn (environment : Table String) (clock : Clock) (files : FileTree)
    (header prelude contractDef : Path) (generatorVersion : Option String) :
    Except Failure (Document TypeDesc) := do
  let preludeText ← (files.readText prelude).mapError Failure.ofReadError
  let text ← (files.readText header).mapError Failure.ofReadError
  let index ← (·.get? header.name) <$> indicesIn files contractDef
  let key ← (keyOf index).mapError Failure.ofKeyRefusal
  let settings := CompilerSettings.ofEnvironment environment
  documentOf settings
    { contractName := FileName.contractName header
      contractIndex := index.map Int.ofNat
      contractPublicKeyHex := key
      sourcePath := some header.toString
      sourceRepo := none
      sourceRevision := none
      generatorVersion
      generatedAt := if settings.includeGeneratedAt then some clock.timestamp else none }
    (withPrelude text (some preludeText))

theorem ends_lookUpIndex (header list : Path) (w : World) :
  Ends (lookUpIndex header (some list)) w
    ((·.get? header.name) <$> indicesIn w.files list) w.files
  := by
  rw [map_eq_pure_bind]
  apply Ends.bind (ends_loadIndices list w)
  intro indices
  dsimp only
  split_ifs with hmissing
  · apply Ends.bind_ok (Ends.record _)
    apply Ends.pure
  · apply Ends.pure

theorem ends_compileFile (header prelude contractDef : Path) (generatorVersion : Option String)
    (w : World) :
  Ends (compileFile header (some prelude) (some contractDef) generatorVersion) w
    (fileDocumentIn w.environment w.clock w.files header prelude contractDef generatorVersion)
    w.files
  := by
  unfold compileFile fileDocumentIn
  rw [Option.mapM_some, bind_map_left]
  apply Ends.bind (Ends.readText prelude)
  intro preludeText
  apply Ends.bind (Ends.readText header)
  intro text
  apply Ends.bind (ends_lookUpIndex header contractDef _)
  intro index
  apply Ends.bind (Ends.ofExcept Failure.ofKeyRefusal _)
  intro key
  apply Ends.bind_ok Ends.settings
  apply Ends.get_bind
  intro events progress
  apply ends_compileText

/-! ### What the options decide -/

/-- A document with what options say about its contract and its provenance. -/
def CompileOptions.label (options : CompileOptions) (d : Document TypeDesc) :
    Document TypeDesc :=
  { d with
    contract := ⟨options.contractName, options.contractIndex, options.contractPublicKeyHex, none⟩
    provenance := some (Header.provenanceOf options d.warnings) }

theorem Header.Outline.compile_options (o : Header.Outline) (options options' : CompileOptions) :
  o.compile options' = Prod.map options'.label id <$> o.compile options
  := by
  unfold Header.Outline.compile
  rcases (Header.compileEntries o.scope o.registrations).run.run Header.ResolverState.start
    with ⟨e | entries, state⟩
  · rfl
  · rfl

/-- The options decide nothing but the label: under others a header is compiled to the same
entries with the same warnings, or it fails for the same reason. -/
theorem documentOf_options (settings : CompilerSettings) (options options' : CompileOptions)
    (source : Text) :
  documentOf settings options' source = options'.label <$> documentOf settings options source
  := by
  unfold documentOf
  rcases Header.outline settings.seed source with e | outline
  · rfl
  · dsimp only [Except.mapError, bind, Except.bind]
    rw [outline.compile_options options options']
    rcases outline.compile options with e | ⟨document, memo⟩
    · rfl
    · rfl

theorem label_of_documentOf {settings : CompilerSettings} {options : CompileOptions}
    {source : Text} {d : Document TypeDesc} (h : documentOf settings options source = .ok d) :
  options.label d = d
  := by
  have hself := documentOf_options settings options options source
  rw [h] at hself
  exact (Except.ok.inj hself).symm

end ContractInterface
