import ContractInterface.Proofs.FileName
import ContractInterface.Proofs.Registry.Run

/-!
# Headers of a registry on their own

The two ways to compile a header, on its own and as part of a registry, derive the name of the
contract, its index and its key independently of each other.  They agree on every header of a
registry, since the last name of its path is the name under which its directory lists it.
-/

namespace ContractInterface

/-- No name in a file tree has a slash, as in every file system. -/
def FileTree.WellNamed (tree : FileTree) : Prop :=
  ∀ entry ∈ tree.nodes, ∀ name ∈ entry.1, '/' ∉ name.toList

instance (tree : FileTree) : Decidable tree.WellNamed :=
  inferInstanceAs (Decidable (∀ entry ∈ tree.nodes, ∀ name ∈ entry.1, '/' ∉ name.toList))

theorem FileTree.WellNamed.slashless {tree : FileTree} (h : tree.WellNamed) {place : Location}
    {name : String} (hname : name ∈ tree.entries place) :
  '/' ∉ name.toList
  := by
  rw [FileTree.entries, List.mem_mergeSort, List.mem_filterMap] at hname
  obtain ⟨entry, hentry, hname⟩ := hname
  dsimp only at hname
  split_ifs at hname with hplace
  exact h entry hentry name (List.mem_of_getLast? hname)

namespace Registry

open Run

/-- Compiles a header of a registry on its own, with the prelude and the list of contracts of the
registry. -/
def compileAlone (r : Registry) (settings : CompilerSettings) (header : String) :
    Run (Document TypeDesc) :=
  compileFile (r.contractsDir.append header) (some (r.contractsDir.append settings.preludeHeader))
    (some r.contractDef) r.generatorVersion

/-- The options under which a header of a registry is compiled on its own. -/
def aloneOptions (r : Registry) (settings : CompilerSettings) (clock : Clock) (header : String)
    (index : Option Nat) (key : Option String) : CompileOptions :=
  { r.options header index key with
    sourcePath := some (r.contractsDir.append header).toString
    sourceRepo := none
    sourceRevision := none
    generatedAt := if settings.includeGeneratedAt then some clock.timestamp else none }

/-- On its own a header gets another origin, and the rest of the label stays. -/
theorem label_aloneOptions {r : Registry} {header : String} {index : Option Nat}
    {key : Option String} {d : Document TypeDesc}
    (h : (r.options header index key).label d = d) (settings : CompilerSettings) (clock : Clock) :
  (r.aloneOptions settings clock header index key).label d =
    { d with
      provenance := d.provenance.map fun p =>
        { p with
          source := some (r.contractsDir.append header).toString
          sourceRepo := none
          sourceRevision := none
          generatedAt :=
            if settings.includeGeneratedAt then some clock.timestamp else none } }
  := by
  have hcontract : d.contract = _ := congrArg Document.contract h.symm
  have hprovenance : d.provenance = _ := congrArg Document.provenance h.symm
  simp only [CompileOptions.label, Document.mk.injEq, true_and]
  refine ⟨hcontract.symm, ?_⟩
  rw [hprovenance]
  rfl

section Agreement

variable {r : Registry} {settings : CompilerSettings} {files : FileTree} {indices : Table Nat}
  {prelude : Text} {names : List String} {header : String}

/-- A header of a registry on its own: the text is read before the key is derived, and the
options say the same about the contract. -/
theorem fileDocumentIn_header (environment : Table String) (clock : Clock)
    (hnamed : files.WellNamed) (hinputs : r.inputsIn settings files = .ok (indices, prelude, names))
    (hheader : header ∈ names) :
  fileDocumentIn environment clock files (r.contractsDir.append header)
      (r.contractsDir.append settings.preludeHeader) r.contractDef r.generatorVersion = (do
    let text ← (files.readText (r.contractsDir.append header)).mapError Failure.ofReadError
    let key ← (keyOf (indices.get? header)).mapError Failure.ofKeyRefusal
    documentOf (CompilerSettings.ofEnvironment environment)
      (r.aloneOptions (CompilerSettings.ofEnvironment environment) clock header
        (indices.get? header) key)
      (withPrelude text (some prelude)))
  := by
  obtain ⟨hindices, hprelude, hnames⟩ := inputsIn_eq_ok_iff.mp hinputs
  have hslash : '/' ∉ header.toList := by
    obtain ⟨base, -, rfl⟩ := headers_eq_ok_iff.mp hnames
    exact hnamed.slashless (List.mem_filter.mp hheader).1
  have hpath := FileName.ofString_of_isContractHeader (isContractHeader_of_mem hnames hheader) hslash
  have hname : (r.contractsDir.append header).name = header := by
    simp [Path.append, Path.join, Path.name, hpath]
  have hcontract : FileName.contractName (r.contractsDir.append header) =
      FileName.contractName (Path.ofString header) := by
    rw [FileName.contractName, FileName.contractName, hname, hpath]
    rfl
  unfold fileDocumentIn
  rw [hprelude, hindices, hname, hcontract]
  cases files.readText (r.contractsDir.append header) with
  | error e => rfl
  | ok text =>
      dsimp only [Except.mapError, bind, Except.bind, Functor.map, Except.map]
      rfl

/-- What the registry compiles is also compiled on its own, and only the label changes. -/
theorem fileDocumentIn_of_documentIn (environment : Table String) (clock : Clock)
    (hnamed : files.WellNamed) (hinputs : r.inputsIn settings files = .ok (indices, prelude, names))
    (hheader : header ∈ names) {d : Document TypeDesc}
    (h : r.documentIn environment files prelude indices header = .ok d) :
  ∃ key, (r.options header (indices.get? header) key).label d = d ∧
    fileDocumentIn environment clock files (r.contractsDir.append header)
      (r.contractsDir.append settings.preludeHeader) r.contractDef r.generatorVersion =
    .ok ((r.aloneOptions (CompilerSettings.ofEnvironment environment) clock header
      (indices.get? header) key).label d)
  := by
  obtain ⟨key, hkey, h⟩ := bind_eq_ok_iff.mp h
  obtain ⟨text, htext, h⟩ := bind_eq_ok_iff.mp h
  use key, label_of_documentOf h
  rw [fileDocumentIn_header environment clock hnamed hinputs hheader, htext, hkey]
  apply Eq.trans (documentOf_options _ (r.options header (indices.get? header) key) _ _)
  rw [h]
  rfl

/-- What is compiled on its own is also compiled as part of the registry. -/
theorem exists_documentIn_of_fileDocumentIn {environment : Table String} {clock : Clock}
    (hnamed : files.WellNamed) (hinputs : r.inputsIn settings files = .ok (indices, prelude, names))
    (hheader : header ∈ names) {d : Document TypeDesc}
    (h : fileDocumentIn environment clock files (r.contractsDir.append header)
      (r.contractsDir.append settings.preludeHeader) r.contractDef r.generatorVersion = .ok d) :
  ∃ d', r.documentIn environment files prelude indices header = .ok d'
  := by
  rw [fileDocumentIn_header environment clock hnamed hinputs hheader] at h
  obtain ⟨text, htext, h⟩ := bind_eq_ok_iff.mp h
  obtain ⟨key, hkey, h⟩ := bind_eq_ok_iff.mp h
  use (r.options header (indices.get? header) key).label d
  rw [documentIn, hkey, htext]
  apply Eq.trans (documentOf_options _ (r.aloneOptions (CompilerSettings.ofEnvironment environment)
    clock header (indices.get? header) key) _ _)
  rw [h]
  rfl

end Agreement

/-- A header of a registry is compiled on its own exactly if it is compiled as part of the
registry.  The two documents say the same about the contract and have the same entries and
warnings; they differ at most in where the header comes from and in the time. -/
theorem compileAlone_agrees (r : Registry) (w : World) (clock : Clock) (events : List Event)
    (progress : Progress) {indices : Table Nat} {prelude : Text} {names : List String}
    {header : String} (hnamed : w.files.WellNamed)
    (hinputs : ((r.inputs (CompilerSettings.ofEnvironment w.environment)).outcome w).1 =
      .ok (indices, prelude, names))
    (hheader : header ∈ names) :
  let alone := ((r.compileAlone (CompilerSettings.ofEnvironment w.environment) header).outcome
    { w with clock, events, progress }).1
  let shared := ((r.compileHeader prelude indices header).outcome w).1
  alone.isOk = shared.isOk ∧ ∀ d d', alone = .ok d → shared = .ok d' →
    d.contract = d'.contract ∧ d.entries = d'.entries ∧ d.warnings = d'.warnings ∧
    ∃ source sourceRepo sourceRevision generatedAt,
      d = { d' with
        provenance := d'.provenance.map fun p =>
          { p with source, sourceRepo, sourceRevision, generatedAt } }
  := by
  have hread : r.inputsIn (CompilerSettings.ofEnvironment w.environment) w.files = _ :=
    (ends_inputs w).result.symm.trans hinputs
  have halone := (ends_compileFile (r.contractsDir.append header)
    (r.contractsDir.append (CompilerSettings.ofEnvironment w.environment).preludeHeader)
    r.contractDef r.generatorVersion { w with clock, events, progress }).result
  have hshared := (r.ends_compileHeader prelude indices header w).result
  rw [compileAlone, halone, hshared]
  dsimp only
  rcases hdocument : r.documentIn w.environment w.files prelude indices header with e | d'
  · rcases hfile : fileDocumentIn w.environment clock w.files (r.contractsDir.append header)
      (r.contractsDir.append (CompilerSettings.ofEnvironment w.environment).preludeHeader)
      r.contractDef r.generatorVersion with e' | d
    · refine ⟨rfl, ?_⟩
      rintro _ _ ⟨⟩
    · obtain ⟨d', hd'⟩ := exists_documentIn_of_fileDocumentIn hnamed hread hheader hfile
      cases hdocument.symm.trans hd'
  · obtain ⟨key, hlabel, hfile⟩ := fileDocumentIn_of_documentIn w.environment clock hnamed hread
      hheader hdocument
    rw [hfile]
    refine ⟨by simp only [Except.isOk, Except.toBool], ?_⟩
    intro d d'' hd hd''
    obtain rfl := Except.ok.inj hd''
    rw [label_aloneOptions hlabel] at hd
    obtain rfl := Except.ok.inj hd
    refine ⟨rfl, rfl, ?_, _, _, _, _, rfl⟩
    cases hprovenance : d'.provenance with
    | none => simp [Document.warnings, hprovenance]
    | some p => simp [Document.warnings, hprovenance]

/-- A registry whose one header is listed with an index. -/
def loneRegistry : Registry :=
  { contractDef := .ofString "def.h"
    contractsDir := .ofString "contracts"
    outputDir := .ofString "out"
    sourceRepo := some "repo"
    sourceRevision := none
    generatorVersion := some "1" }

/-- A world with the files of that registry. -/
def loneWorld : World :=
  { files :=
      { nodes :=
          [(["contracts"], .directory),
            (["contracts", "A.h"], .file (Utf8.encode
              "struct F_input { ID x; };\nREGISTER_USER_FUNCTION(F, 1);".toList)),
            (["contracts", "qpi.h"], .file (Utf8.encode "typedef uint32 ID;".toList)),
            (["def.h"], .file (Utf8.encode
              ("#define A_CONTRACT_INDEX 7\n#define CONTRACT_STATE_TYPE A\n" ++
                "#include \"contracts/A.h\"").toList))]
        cwd := [] }
    environment := []
    clock := ⟨"now", "now", "0.00", "1.0"⟩
    events := []
    progress := .start }

theorem inputs_loneWorld :
  ((loneRegistry.inputs (.ofEnvironment loneWorld.environment)).outcome loneWorld).1 =
    .ok ([("A.h", 7)], "typedef uint32 ID;".toList, ["A.h"])
  := by
  have hplace : loneWorld.files.locate loneRegistry.contractsDir = .ok ["contracts"] := by
    decide +kernel
  have hlist : loneWorld.files.list loneRegistry.contractsDir = .ok ["A.h", "qpi.h"] :=
    FileTree.list_of_pairwise hplace (by decide +kernel) (by decide +kernel) (by decide +kernel)
  rw [(ends_inputs loneWorld).result, inputsIn_eq_ok_iff]
  refine ⟨by decide +kernel, by decide +kernel, ?_⟩
  rw [headers, hlist]
  decide +kernel

/-- The header of that registry is compiled both ways. -/
theorem compileAlone_agrees_loneWorld :
  ((loneRegistry.compileAlone (.ofEnvironment loneWorld.environment) "A.h").outcome
      loneWorld).1.isOk ∧
    ((loneRegistry.compileHeader "typedef uint32 ID;".toList [("A.h", 7)] "A.h").outcome
      loneWorld).1.isOk
  := by
  have hshared : ((loneRegistry.compileHeader "typedef uint32 ID;".toList [("A.h", 7)]
      "A.h").outcome loneWorld).1.isOk := by
    decide +kernel
  have hagrees := compileAlone_agrees loneRegistry loneWorld loneWorld.clock [] .start
    (by decide +kernel) inputs_loneWorld List.mem_cons_self
  exact ⟨hagrees.1.trans hshared, hshared⟩

end Registry

end ContractInterface
