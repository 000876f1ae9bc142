import ContractInterface.Proofs.FileTree.Listing
import ContractInterface.Proofs.Program.Compile

/-!
# Runs of a registry

A registry is made in three stages.  First what it is made from is read, which changes no files;
then the output directory is made; then the headers are compiled one after another, and the
document of each one is written before the next one is compiled (`Fills`).  A run that fails stops
in one of the three stages, and `Course` lists the ways in which it can end.
-/

namespace ContractInterface.Registry

open Run

variable {r : Registry} {settings : CompilerSettings}

/-! ### Headers -/

/-- The headers of a registry are entries of its directory that are files and have the name of a
contract header. -/
theorem headers_eq_ok_iff {files : FileTree} {names : List String} :
  r.headers settings files = .ok names ↔
    ∃ base, files.Listable r.contractsDir base ∧
      names = (files.entries base).filter fun name =>
        FileName.isContractHeader name settings.preludeHeader &&
          files.leadsToFile (r.contractsDir.append name)
  := by
  have hheaders : r.headers settings files = (do
      let names ← files.filesIn r.contractsDir
      return names.filter fun name =>
        FileName.isContractHeader name settings.preludeHeader) := by
    rw [headers, FileTree.filesIn, bind_assoc]
  rw [hheaders, bind_eq_ok_iff]
  constructor
  · rintro ⟨present, hpresent, h⟩
    obtain ⟨base, hbase, rfl⟩ := FileTree.filesIn_eq_ok_iff.mp hpresent
    obtain rfl := Except.ok.inj h
    exact ⟨base, hbase, List.filter_filter⟩
  · rintro ⟨base, hbase, rfl⟩
    refine ⟨_, FileTree.filesIn_eq_ok_iff.mpr ⟨base, hbase, rfl⟩, ?_⟩
    rw [List.filter_filter]
    rfl

section Headers

variable {files : FileTree} {names : List String} (h : r.headers settings files = .ok names)

include h

/-- The headers of a registry come in the order of their names. -/
theorem pairwise_headers : names.Pairwise (· ≤ ·)
  := by
  obtain ⟨base, -, rfl⟩ := headers_eq_ok_iff.mp h
  apply List.Pairwise.filter
  apply FileTree.pairwise_entries

variable {header : String} (hheader : header ∈ names)

include hheader

theorem isContractHeader_of_mem : FileName.isContractHeader header settings.preludeHeader
  := by
  obtain ⟨base, -, rfl⟩ := headers_eq_ok_iff.mp h
  have htest := (List.mem_filter.mp hheader).2
  rw [Bool.and_eq_true] at htest
  exact htest.1

/-- The headers of a registry are there, and they are files. -/
theorem exists_of_mem_headers :
  ∃ place content, files.locate (r.contractsDir.append header) = .ok place ∧
    files.get? place = some (.file content)
  := by
  obtain ⟨base, -, rfl⟩ := headers_eq_ok_iff.mp h
  have htest := (List.mem_filter.mp hheader).2
  rw [Bool.and_eq_true] at htest
  exact FileTree.leadsToFile_iff.mp htest.2

end Headers

/-! ### Stages -/

/-- Reads what a registry is made from: the indices of the contracts, the prelude and the names
of the headers. -/
def inputs (r : Registry) (settings : CompilerSettings) :
    Run (Table Nat × Text × List String) := do
  let indices ← loadIndices r.contractDef
  let prelude ← readText (r.contractsDir.append settings.preludeHeader)
  let names ← ofExcept Failure.file (r.headers settings (← get).files)
  return (indices, prelude, names)

/-- What a registry is made from in given files. -/
def inputsIn (r : Registry) (settings : CompilerSettings) (files : FileTree) :
    Except Failure (Table Nat × Text × List String) := do
  let indices ← indicesIn files r.contractDef
  let prelude ← (files.readText (r.contractsDir.append settings.preludeHeader)).mapError
    Failure.ofReadError
  let names ← (r.headers settings files).mapError Failure.file
  return (indices, prelude, names)

theorem inputsIn_eq_ok_iff {files : FileTree} {indices : Table Nat} {prelude : Text}
    {names : List String} :
  r.inputsIn settings files = .ok (indices, prelude, names) ↔
    indicesIn files r.contractDef = .ok indices ∧
      files.readText (r.contractsDir.append settings.preludeHeader) = .ok prelude ∧
      r.headers settings files = .ok names
  := by
  constructor
  · intro h
    obtain ⟨indices', hindices, h⟩ := bind_eq_ok_iff.mp h
    obtain ⟨prelude', hprelude, h⟩ := bind_eq_ok_iff.mp h
    obtain ⟨names', hnames, h⟩ := bind_eq_ok_iff.mp h
    have heq := Except.ok.inj h
    simp only [Prod.mk.injEq] at heq
    obtain ⟨rfl, rfl, rfl⟩ := heq
    exact ⟨hindices, mapError_eq_ok_iff.mp hprelude, mapError_eq_ok_iff.mp hnames⟩
  · rintro ⟨hindices, hprelude, hnames⟩
    rw [inputsIn, hindices, hprelude, hnames]
    rfl

theorem ends_inputs (w : World) :
  Ends (r.inputs settings) w (r.inputsIn settings w.files) w.files
  := by
  apply Ends.bind (ends_loadIndices r.contractDef w)
  intro indices
  apply Ends.bind (Ends.readText _)
  intro prelude
  apply Ends.get_bind
  intro events progress
  apply Ends.bind (Ends.ofExcept Failure.file _)
  intro names
  apply Ends.pure

/-- Compiles the headers of a registry and writes their documents. -/
def addHeaders (r : Registry) (settings : CompilerSettings) (prelude : Text)
    (indices : Table Nat) (names : List String) : Run (List Path) :=
  names.mapM fun name => within (·.enterHeader name) (r.addHeader settings prelude indices name)

/-- The stages of making a registry. -/
theorem build_eq :
  r.build settings = (do
    let (indices, prelude, names) ← r.inputs settings
    log .info ("Compiling " ++ toString names.length ++ " contract headers from " ++
      r.contractsDir.toString)
    ensureDirectory r.outputDir
    r.addHeaders settings prelude indices names)
  := by
  unfold build inputs addHeaders
  simp only [bind_assoc, pure_bind]

/-! ### One header -/

/-- Compiles a header of a registry and renders its document. -/
def text (r : Registry) (prelude : Text) (indices : Table Nat) (header : String) : Run Text :=
  do render (← r.compileHeader prelude indices header)

/-- The text of the document of a header, compiled from given files. -/
def textIn (r : Registry) (environment : Table String) (files : FileTree) (prelude : Text)
    (indices : Table Nat) (header : String) : Except Failure Text := do
  (Json.render (← r.documentIn environment files prelude indices header).toJson).mapError
    Failure.numeral

theorem ends_text (prelude : Text) (indices : Table Nat) (header : String) (w : World) :
  Ends (r.text prelude indices header) w
    (r.textIn w.environment w.files prelude indices header) w.files
  := by
  apply Ends.bind (r.ends_compileHeader prelude indices header w)
  intro document
  apply Ends.ofExcept

/-- The files with the document of a header, given its text. -/
def put (r : Registry) (settings : CompilerSettings) (files : FileTree)
    (document : String × Text) : Except FileTree.Error FileTree :=
  files.write (r.documentPath settings document.1) (Utf8.encode document.2)

theorem put_eq (files : FileTree) (header : String) (text : Text) :
  r.put settings files (header, text) =
    files.write (r.documentPath settings header) (Utf8.encode text)
  := rfl

/-- The text of the document of a header and the files with it. -/
def stepIn (r : Registry) (settings : CompilerSettings) (environment : Table String)
    (prelude : Text) (indices : Table Nat) (files : FileTree) (header : String) :
    Except Failure (Text × FileTree) := do
  let text ← r.textIn environment files prelude indices header
  let files ← (r.put settings files (header, text)).mapError Failure.file
  return (text, files)

section Step

variable {prelude : Text} {indices : Table Nat} {header : String} {w : World}

theorem ends_count (document : Document TypeDesc) :
  Ends (modify fun w =>
    { w with
      progress :=
        (w.progress.countEntries document.entries.length).countWarnings
          document.warnings.length }) w (.ok ()) w.files
  := by
  intro events progress
  exact ⟨events, _, rfl, rfl⟩

/-- A compiled document is counted before it is rendered and written. -/
theorem ends_addHeader {text : Text} {result : Except Failure Unit} {files : FileTree}
    (htext : r.textIn w.environment w.files prelude indices header = .ok text)
    (hwrite : Ends (writeText (r.documentPath settings header) text) w result files) :
  Ends (r.addHeader settings prelude indices header) w
    (do result; return r.documentPath settings header) files
  := by
  obtain ⟨document, hdocument, hrender⟩ := bind_eq_ok_iff.mp htext
  have hcompile := r.ends_compileHeader prelude indices header w
  rw [hdocument] at hcompile
  have hrendered : Ends (render document) w (.ok text) w.files := by
    rw [← hrender]
    apply Ends.ofExcept
  unfold addHeader
  apply hcompile.bind_ok
  apply Ends.bind_ok (ends_count document)
  apply Ends.bind_ok hrendered
  cases result with
  | error e => apply hwrite.bind_error
  | ok a =>
      apply hwrite.bind_ok
      apply Ends.bind_ok (Ends.record _)
      apply Ends.pure

theorem ends_addHeader_ok {text : Text} {files : FileTree}
    (h : r.stepIn settings w.environment prelude indices w.files header = .ok (text, files)) :
  Ends (r.addHeader settings prelude indices header) w (.ok (r.documentPath settings header))
    files
  := by
  obtain ⟨text', htext, h⟩ := bind_eq_ok_iff.mp h
  obtain ⟨files', hput, h⟩ := bind_eq_ok_iff.mp h
  obtain ⟨rfl, rfl⟩ := Prod.mk.inj (Except.ok.inj h)
  have hwrite : Ends (writeText (r.documentPath settings header) text') w (.ok ()) files' := by
    apply Ends.writeText_ok
    rw [mapError_eq_ok_iff, put_eq] at hput
    exact hput
  exact ends_addHeader htext hwrite

theorem ends_addHeader_error {e : Failure}
    (h : r.stepIn settings w.environment prelude indices w.files header = .error e) :
  Ends (r.addHeader settings prelude indices header) w (.error e) w.files
  := by
  rcases bind_eq_error_iff.mp h with htext | ⟨text, htext, h⟩
  · have hcompile := r.ends_compileHeader prelude indices header w
    unfold addHeader
    rcases bind_eq_error_iff.mp htext with hdocument | ⟨document, hdocument, hrender⟩
    · rw [hdocument] at hcompile
      apply hcompile.bind_error
    · rw [hdocument] at hcompile
      apply hcompile.bind_ok
      apply Ends.bind_ok (ends_count document)
      apply Ends.bind_error
      rw [← hrender]
      apply Ends.ofExcept
  · rcases bind_eq_error_iff.mp h with hput | ⟨files, -, h⟩
    · obtain ⟨cause, hrefused, rfl⟩ := mapError_eq_error_iff.mp hput
      have hwrite : Ends (writeText (r.documentPath settings header) text) w
          (.error (.file cause)) w.files := by
        apply Ends.writeText_error
        rw [put_eq] at hrefused
        exact hrefused
      exact ends_addHeader htext hwrite
    · cases h

end Step

/-! ### All headers -/

/-- Headers are compiled and their documents written, one after another: each header is compiled
from the files that the ones before it have left. -/
inductive Fills (r : Registry) (settings : CompilerSettings) (environment : Table String)
    (prelude : Text) (indices : Table Nat) :
    FileTree → List (String × Text) → FileTree → Prop
  | nil {files : FileTree} : Fills r settings environment prelude indices files [] files
  | cons {files files' files'' : FileTree} {header : String} {text : Text}
      {written : List (String × Text)}
      (step : r.stepIn settings environment prelude indices files header = .ok (text, files'))
      (rest : Fills r settings environment prelude indices files' written files'') :
      Fills r settings environment prelude indices files ((header, text) :: written) files''

section Loop

variable {environment : Table String} {prelude : Text} {indices : Table Nat}

/-- Documents can be written for all headers, or for those before the first one that fails. -/
theorem fills_cases (r : Registry) (settings : CompilerSettings) (environment : Table String)
    (prelude : Text) (indices : Table Nat) (files : FileTree) (names : List String) :
  (∃ written files', written.map Prod.fst = names ∧
    Fills r settings environment prelude indices files written files') ∨
  ∃ done failing rest written files' e, names = done ++ failing :: rest ∧
    written.map Prod.fst = done ∧
    Fills r settings environment prelude indices files written files' ∧
    r.stepIn settings environment prelude indices files' failing = .error e
  := by
  induction names generalizing files with
  | nil =>
      left
      exact ⟨[], files, rfl, .nil⟩
  | cons header names ih =>
      rcases hstep : r.stepIn settings environment prelude indices files header
        with e | ⟨text, files'⟩
      · right
        exact ⟨[], header, names, [], files, e, rfl, rfl, .nil, hstep⟩
      · rcases ih files' with ⟨written, files'', hwritten, hfills⟩ |
          ⟨done, failing, rest, written, files'', e, horder, hwritten, hfills, hfailing⟩
        · left
          refine ⟨(header, text) :: written, files'', ?_, .cons hstep hfills⟩
          rw [List.map_cons, hwritten]
        · right
          refine ⟨header :: done, failing, rest, (header, text) :: written, files'', e, ?_, ?_,
            .cons hstep hfills, hfailing⟩
          · rw [horder, List.cons_append]
          · rw [List.map_cons, hwritten]

/-- When some documents have been written, the other headers decide how a loop ends. -/
theorem ends_addHeaders {w : World} {files files' : FileTree} {written : List (String × Text)}
    {rest : List String} {result : Except Failure (List Path)}
    (hfills : Fills r settings w.environment prelude indices files written files')
    (hrest : Ends (r.addHeaders settings prelude indices rest) { w with files := files' } result
      files') :
  Ends (r.addHeaders settings prelude indices (written.map Prod.fst ++ rest)) { w with files }
    (((written.map Prod.fst).map (r.documentPath settings) ++ ·) <$> result) files'
  := by
  induction hfills with
  | nil =>
      cases result with
      | error e => exact hrest
      | ok paths => exact hrest
  | @cons files files' files'' header text written hstep hfills ih =>
      have hheader : Ends
          (within (·.enterHeader header) (r.addHeader settings prelude indices header))
          { w with files } (.ok (r.documentPath settings header)) files' :=
        Ends.withinHeader header (ends_addHeader_ok hstep)
      have hwritten := ih hrest
      rw [List.map_cons, List.cons_append, addHeaders, List.mapM_cons]
      apply hheader.bind_ok
      cases result with
      | error e => apply hwritten.bind_error
      | ok paths =>
          apply hwritten.bind_ok
          apply Ends.pure

theorem ends_addHeaders_ok {w : World} {files files' : FileTree} {written : List (String × Text)}
    (hfills : Fills r settings w.environment prelude indices files written files') :
  Ends (r.addHeaders settings prelude indices (written.map Prod.fst)) { w with files }
    (.ok ((written.map Prod.fst).map (r.documentPath settings))) files'
  := by
  have hrest : Ends (r.addHeaders settings prelude indices []) { w with files := files' } (.ok [])
      files' := by
    apply Ends.pure
  have hloop := ends_addHeaders hfills hrest
  rw [List.append_nil] at hloop
  simpa [Functor.map, Except.map] using hloop

theorem ends_addHeaders_error {w : World} {files files' : FileTree}
    {written : List (String × Text)} {failing : String} {e : Failure}
    (hfills : Fills r settings w.environment prelude indices files written files')
    (hstep : r.stepIn settings w.environment prelude indices files' failing = .error e)
    (rest : List String) :
  Ends (r.addHeaders settings prelude indices (written.map Prod.fst ++ failing :: rest))
    { w with files } (.error e) files'
  := by
  have hrest : Ends (r.addHeaders settings prelude indices (failing :: rest))
      { w with files := files' } (.error e) files' := by
    rw [addHeaders, List.mapM_cons]
    apply Ends.bind_error
    apply Ends.withinHeader
    exact ends_addHeader_error hstep
  exact ends_addHeaders hfills hrest

end Loop

/-! ### The whole run -/

/-- The ways in which making a registry from given files ends: the result, and the files that are
left. -/
inductive Course (r : Registry) (settings : CompilerSettings) (environment : Table String)
    (files : FileTree) : Except Failure (List Path) → FileTree → Prop
  | unread {e : Failure} (inputs : r.inputsIn settings files = .error e) :
      Course r settings environment files (.error e) files
  | unmade {indices : Table Nat} {prelude : Text} {names : List String} {e : FileTree.Error}
      {files' : FileTree}
      (inputs : r.inputsIn settings files = .ok (indices, prelude, names))
      (directory : files.makeDirectories r.outputDir = (.error e, files')) :
      Course r settings environment files (.error (.file e)) files'
  | stopped {indices : Table Nat} {prelude : Text} {names done rest : List String}
      {failing : String} {written : List (String × Text)} {e : Failure} {tree files' : FileTree}
      (inputs : r.inputsIn settings files = .ok (indices, prelude, names))
      (directory : files.makeDirectories r.outputDir = (.ok (), tree))
      (order : names = done ++ failing :: rest)
      (headers : written.map Prod.fst = done)
      (fills : Fills r settings environment prelude indices tree written files')
      (step : r.stepIn settings environment prelude indices files' failing = .error e) :
      Course r settings environment files (.error e) files'
  | finished {indices : Table Nat} {prelude : Text} {names : List String}
      {written : List (String × Text)} {tree files' : FileTree}
      (inputs : r.inputsIn settings files = .ok (indices, prelude, names))
      (directory : files.makeDirectories r.outputDir = (.ok (), tree))
      (headers : written.map Prod.fst = names)
      (fills : Fills r settings environment prelude indices tree written files') :
      Course r settings environment files (.ok (names.map (r.documentPath settings))) files'

/-- Every registry takes one of the courses. -/
theorem exists_course (r : Registry) (settings : CompilerSettings) (environment : Table String)
    (files : FileTree) :
  ∃ result files', Course r settings environment files result files'
  := by
  rcases hinputs : r.inputsIn settings files with e | ⟨indices, prelude, names⟩
  · exact ⟨_, _, .unread hinputs⟩
  · rcases hdirectory : files.makeDirectories r.outputDir with ⟨e | _, tree⟩
    · exact ⟨_, _, .unmade hinputs hdirectory⟩
    · rcases fills_cases r settings environment prelude indices tree names with
        ⟨written, files', hwritten, hfills⟩ |
        ⟨done, failing, rest, written, files', e, horder, hwritten, hfills, hstep⟩
      · exact ⟨_, _, .finished hinputs hdirectory hwritten hfills⟩
      · exact ⟨_, _, .stopped hinputs hdirectory horder hwritten hfills hstep⟩

/-- When everything has been read, the other two stages decide how a registry is made. -/
theorem ends_build {w : World} {indices : Table Nat} {prelude : Text} {names : List String}
    {result : Except Failure (List Path)} {files : FileTree}
    (hread : r.inputsIn settings w.files = .ok (indices, prelude, names))
    (hrest : Ends (do ensureDirectory r.outputDir; r.addHeaders settings prelude indices names) w
      result files) :
  Ends (r.build settings) w result files
  := by
  have hinputs : Ends (r.inputs settings) w _ w.files := ends_inputs w
  rw [hread] at hinputs
  rw [build_eq]
  apply hinputs.bind_ok
  apply Ends.bind_ok (Ends.record _)
  exact hrest

/-- The course that a registry takes is how making it ends. -/
theorem Course.ends {w : World} {result : Except Failure (List Path)} {files : FileTree}
    (h : Course r settings w.environment w.files result files) :
  Ends (r.build settings) w result files
  := by
  have hdirectory : Ends (ensureDirectory r.outputDir) w _ _ := Ends.ensureDirectory r.outputDir
  cases h with
  | unread hinputs =>
      have hread : Ends (r.inputs settings) w _ w.files := ends_inputs w
      rw [hinputs] at hread
      rw [build_eq]
      apply hread.bind_error
  | unmade hinputs hmade =>
      rw [hmade] at hdirectory
      apply ends_build hinputs
      apply hdirectory.bind_error
  | stopped hinputs hmade horder hwritten hfills hstep =>
      rw [hmade] at hdirectory
      apply ends_build hinputs
      apply hdirectory.bind_ok
      rw [horder, ← hwritten]
      exact ends_addHeaders_error hfills hstep _
  | finished hinputs hmade hwritten hfills =>
      rw [hmade] at hdirectory
      apply ends_build hinputs
      apply hdirectory.bind_ok
      rw [← hwritten]
      exact ends_addHeaders_ok hfills

/-- A registry that takes a course returns its result and leaves its files.  Otherwise only the
log and the progress change, and in the end it is in no operation. -/
theorem Course.outcome {w : World} {result : Except Failure (List Path)} {files : FileTree}
    (h : Course r settings w.environment w.files result files) :
  ∃ events progress, (r.generate settings).outcome w = (result, { w with files, events, progress }) ∧
    progress.operations = []
  := by
  have hwithin := Ends.withinOperation "compile-registry" h.ends
  have hrun : Ends (do
      let paths ← within (·.enterOperation "compile-registry") (r.build settings)
      let w ← get
      record (Progress.memoryUsage w.clock)
      record (w.progress.summary w.clock)
      return paths) w result files := by
    cases result with
    | error e => apply hwithin.bind_error
    | ok paths =>
        apply hwithin.bind_ok
        apply Ends.get_bind
        intro events progress
        apply Ends.bind_ok (Ends.record _)
        apply Ends.bind_ok (Ends.record _)
        apply Ends.pure
  rcases hgenerate : (r.generate settings).outcome w with ⟨result', w'⟩
  obtain ⟨started, ended, hbody⟩ := exists_of_outcome_timed hgenerate
  obtain ⟨_, progress, houtcome, hoperations⟩ := hrun started Progress.start
  rw [outcome_modify_bind, houtcome] at hbody
  obtain ⟨rfl, hworld⟩ := Prod.mk.inj hbody
  obtain ⟨hfiles, henvironment, hclock, -, hprogress⟩ := World.mk.inj hworld
  refine ⟨w'.events, progress, ?_, hoperations⟩
  rw [hfiles, henvironment, hclock, hprogress]

theorem Course.exists_outcome {w : World} {result : Except Failure (List Path)} {files : FileTree}
    (h : Course r settings w.environment w.files result files) :
  ∃ w', (r.generate settings).outcome w = (result, w') ∧ w'.files = files ∧
    w'.progress.operations = []
  := by
  obtain ⟨events, progress, houtcome, hoperations⟩ := h.outcome
  exact ⟨_, houtcome, rfl, hoperations⟩

/-- Every run of a registry takes one of the courses, and in the end it is in no operation. -/
theorem course_of_generate {w w' : World} {result : Except Failure (List Path)}
    (h : (r.generate settings).outcome w = (result, w')) :
  Course r settings w.environment w.files result w'.files ∧ w'.progress.operations = []
  := by
  obtain ⟨result', files, hcourse⟩ := exists_course r settings w.environment w.files
  obtain ⟨w'', hgenerate, rfl, hoperations⟩ := hcourse.exists_outcome
  obtain ⟨rfl, rfl⟩ := Prod.mk.inj (hgenerate.symm.trans h)
  exact ⟨hcourse, hoperations⟩

theorem environment_of_generate {w w' : World} {result : Except Failure (List Path)}
    (h : (r.generate settings).outcome w = (result, w')) :
  w'.environment = w.environment
  := by
  obtain ⟨result', files, hcourse⟩ := exists_course r settings w.environment w.files
  obtain ⟨events, progress, houtcome, -⟩ := hcourse.outcome
  obtain ⟨-, rfl⟩ := Prod.mk.inj (h.symm.trans houtcome)
  rfl

end ContractInterface.Registry
