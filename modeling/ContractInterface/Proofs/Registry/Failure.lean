import ContractInterface.Proofs.Registry.Documents

/-!
# Registries that fail

A registry that fails changes only what it has completed.  If something cannot be read, nothing
changes.  If a header fails, the output directory has been made and the documents of the headers
before it have been written.  As long as no document goes to the place of a header, these are the
documents that the headers have in the beginning.
-/

namespace ContractInterface.Registry

open Run

variable {r : Registry} {settings : CompilerSettings}

/-- No document of the given headers goes to the place of one of them. -/
def Apart (r : Registry) (settings : CompilerSettings) (files : FileTree) (names : List String) :
    Prop :=
  ∀ header ∈ names, ∀ other ∈ names,
    files.locate (r.documentPath settings header) ≠ files.locate (r.contractsDir.append other)

instance (r : Registry) (settings : CompilerSettings) (files : FileTree) (names : List String) :
    Decidable (r.Apart settings files names) :=
  inferInstanceAs (Decidable (∀ header ∈ names, ∀ other ∈ names,
    files.locate (r.documentPath settings header) ≠ files.locate (r.contractsDir.append other)))

/-! ### Headers that stay as they are -/

/-- The document of a header depends on the files only through the header. -/
theorem textIn_congr {files files' : FileTree} {header : String}
    (h : files'.read (r.contractsDir.append header) = files.read (r.contractsDir.append header))
    (environment : Table String) (prelude : Text) (indices : Table Nat) :
  r.textIn environment files' prelude indices header =
    r.textIn environment files prelude indices header
  := by
  rw [textIn, textIn, documentIn, documentIn, FileTree.readText, FileTree.readText, h]

section Apart

variable {files tree files' : FileTree} {names : List String} {written : List (String × Text)}
  (hnames : r.headers settings files = .ok names)
  (hgains : FileTree.GainsDirectories r.outputDir files tree)
  (hapart : r.Apart settings tree names)

include hnames hgains hapart

/-- Directories and documents leave the headers as they are. -/
theorem read_header_of_apart (hwritten : written.map Prod.fst ⊆ names)
    (hput : written.foldlM (r.put settings) tree = .ok files') {header : String}
    (hheader : header ∈ names) :
  files'.read (r.contractsDir.append header) = files.read (r.contractsDir.append header)
  := by
  obtain ⟨place, content, hplace, hcontent⟩ := exists_of_mem_headers hnames hheader
  have hplace' := hgains.keepsDirectories.locate hplace
  have hother : ∀ document ∈ written,
      tree.locate (r.documentPath settings document.1) ≠ .ok place := by
    intro document hdocument
    rw [← hplace']
    exact hapart document.1 (hwritten (List.mem_map_of_mem hdocument)) header hheader
  apply FileTree.read_eq_read hplace ((keepsShape_foldlM_put hput).locate_iff.mpr hplace')
  rw [get?_foldlM_put_of_forall hput hother, hgains.kept hcontent, hcontent]

/-- The documents that are written are those that the headers have in the beginning. -/
theorem textIn_of_apart {environment : Table String} {prelude : Text} {indices : Table Nat}
    (hwritten : written.map Prod.fst ⊆ names)
    (hfills : Fills r settings environment prelude indices tree written files') :
  ∀ document ∈ written,
    r.textIn environment files prelude indices document.1 = .ok document.2
  := by
  rintro ⟨header, text⟩ hdocument
  obtain ⟨before, after, hsplit⟩ := List.append_of_mem hdocument
  obtain ⟨files₁, hbefore, htext⟩ := hfills.exists_compiled hsplit
  have hsubset : before.map Prod.fst ⊆ names := by
    intro name hname
    apply hwritten
    rw [hsplit, List.map_append]
    exact List.mem_append_left _ hname
  have hread := read_header_of_apart hnames hgains hapart hsubset hbefore
    (hwritten (List.mem_map_of_mem hdocument))
  rw [← textIn_congr hread]
  exact htext

end Apart

/-! ### What a failure leaves -/

/-- A registry stopped at a header: what was written before it, and the files that are left. -/
structure Stopped (r : Registry) (settings : CompilerSettings) (w : World) (prelude : Text)
    (indices : Table Nat) (tree : FileTree) (written : List (String × Text)) (failing : String)
    (e : Failure) (files : FileTree) : Prop where
  compiled : ∀ document ∈ written,
    ((r.text prelude indices document.1).outcome w).1 = .ok document.2
  left : written.foldlM (r.put settings) tree = .ok files
  failed : ((r.addHeader settings prelude indices failing).outcome { w with files }).1 = .error e
  unchanged : ∀ place,
    (∀ document ∈ written, tree.locate (r.documentPath settings document.1) ≠ .ok place) →
    files.get? place = tree.get? place

/-- A registry that fails is in no operation any more, and it has changed only what it has
completed.  If what it is made from cannot be read, nothing has changed; if the output directory
cannot be made, there are at most directories on the way to it.  If it fails at a header, in the
order of the names, the output directory has been made and the documents of the headers before
that one have been written. -/
theorem generate_error {w w' : World} {e : Failure}
    (h : (r.generate settings).outcome w = (.error e, w'))
    (hapart : ∀ indices prelude names tree,
      ((r.inputs settings).outcome w).1 = .ok (indices, prelude, names) →
      w.files.makeDirectories r.outputDir = (.ok (), tree) → r.Apart settings tree names) :
  w'.progress.operations = [] ∧
    ((((r.inputs settings).outcome w).1 = .error e ∧ w'.files = w.files) ∨
    ∃ indices prelude names,
      ((r.inputs settings).outcome w).1 = .ok (indices, prelude, names) ∧
      names.Pairwise (· ≤ ·) ∧
      ((∃ cause, e = .file cause ∧
        w.files.makeDirectories r.outputDir = (.error cause, w'.files) ∧
        FileTree.Makes r.outputDir w.files (.error cause, w'.files)) ∨
      ∃ tree written failing rest,
        w.files.makeDirectories r.outputDir = (.ok (), tree) ∧
        FileTree.Makes r.outputDir w.files (.ok (), tree) ∧
        names = written.map Prod.fst ++ failing :: rest ∧
        r.Stopped settings w prelude indices tree written failing e w'.files))
  := by
  obtain ⟨hcourse, hoperations⟩ := course_of_generate h
  have hresult : ((r.inputs settings).outcome w).1 = _ := (ends_inputs w).result
  have hmakes := FileTree.makes_makeDirectories w.files r.outputDir
  use hoperations
  generalize w'.files = files at hcourse ⊢
  cases hcourse with
  | unread hinputs =>
      left
      exact ⟨hresult.trans hinputs, rfl⟩
  | @unmade indices prelude names cause _ hinputs hdirectory =>
      right
      rw [hdirectory] at hmakes
      refine ⟨indices, prelude, names, hresult.trans hinputs,
        pairwise_headers (inputsIn_eq_ok_iff.mp hinputs).2.2, ?_⟩
      left
      exact ⟨cause, rfl, hdirectory, hmakes⟩
  | @stopped indices prelude names done rest failing written _ tree _ hinputs hdirectory horder
      hwritten hfills hstep =>
      right
      rw [hdirectory] at hmakes
      have hnames := (inputsIn_eq_ok_iff.mp hinputs).2.2
      have hsubset : written.map Prod.fst ⊆ names := by
        rw [horder, hwritten]
        exact List.subset_append_left done (failing :: rest)
      have hends : Ends (r.addHeader settings prelude indices failing) { w with files } (.error e)
          files := ends_addHeader_error hstep
      have hread := hresult.trans hinputs
      have htext := textIn_of_apart hnames hmakes.gains
        (hapart indices prelude names tree hread hdirectory) hsubset hfills
      refine ⟨indices, prelude, names, hread, pairwise_headers hnames, ?_⟩
      right
      refine ⟨tree, written, failing, rest, hdirectory, hmakes, by rw [horder, hwritten], ?_⟩
      constructor
      · intro document hdocument
        exact (ends_text _ _ _ w).result.trans (htext document hdocument)
      · exact hfills.foldlM
      · exact hends.result
      · intro place hother
        exact get?_foldlM_put_of_forall hfills.foldlM hother

/-- A header, one that cannot be decoded, and further files. -/
def brokenFiles (others : List (Location × Node)) : FileTree :=
  { nodes :=
      [(["contracts"], .directory), (["contracts", "A.h"], .file []),
        (["contracts", "B.h"], .file [0xff]), (["contracts", "qpi.h"], .file []),
        (["def.h"], .file [])] ++ others
    cwd := [] }

/-- A world with these headers. -/
def brokenWorld : World :=
  { files := brokenFiles []
    environment := []
    clock := ⟨"now", "now", "0.00", "1.0"⟩
    events := []
    progress := .start }

theorem inputsIn_broken :
  sampleRegistry.inputsIn .default (brokenFiles []) = .ok ([], [], ["A.h", "B.h"])
  := by
  have hplace : (brokenFiles []).locate sampleRegistry.contractsDir = .ok ["contracts"] := by
    decide +kernel
  have hlist : (brokenFiles []).list sampleRegistry.contractsDir =
      .ok ["A.h", "B.h", "qpi.h"] :=
    FileTree.list_of_pairwise hplace (by decide +kernel) (by decide +kernel) (by decide +kernel)
  rw [inputsIn_eq_ok_iff, headers, hlist]
  exact ⟨by decide +kernel, by decide +kernel, by decide +kernel⟩

theorem makeDirectories_broken :
  (brokenFiles []).makeDirectories sampleRegistry.outputDir =
    (.ok (), brokenFiles [(["out"], .directory)])
  := by
  decide +kernel

/-- These files with the document of the first header. -/
def brokenFilled : FileTree :=
  brokenFiles [(["out"], .directory),
    (["out", "A.qbi"], .file (Utf8.encode (sampleText (brokenFiles []) "A.h")))]

theorem stepIn_broken_first :
  sampleRegistry.stepIn .default [] [] [] (brokenFiles [(["out"], .directory)]) "A.h" =
    .ok (sampleText (brokenFiles []) "A.h", brokenFilled)
  := by
  decide +kernel

theorem stepIn_broken_second :
  sampleRegistry.stepIn .default [] [] [] brokenFilled "B.h" =
    .error (.encoding ⟨0, 0xff, 1, .invalidStart⟩)
  := by
  decide +kernel

theorem outcome_broken :
  ∃ w', (sampleRegistry.generate .default).outcome brokenWorld =
    (.error (.encoding ⟨0, 0xff, 1, .invalidStart⟩), w')
  := by
  have hcourse : Course sampleRegistry .default brokenWorld.environment brokenWorld.files _ _ :=
    .stopped inputsIn_broken makeDirectories_broken rfl rfl (.cons stepIn_broken_first .nil)
      stepIn_broken_second
  obtain ⟨w', houtcome, -⟩ := hcourse.exists_outcome
  exact ⟨w', houtcome⟩

/-- The first of these headers does not fail, so it is the second one that does. -/
theorem exists_of_stopped_broken {written : List (String × Text)} {failing : String}
    {rest : List String} {e : Failure} {files : FileTree}
    (horder : ["A.h", "B.h"] = written.map Prod.fst ++ failing :: rest)
    (h : Stopped sampleRegistry .default brokenWorld [] [] (brokenFiles [(["out"], .directory)])
      written failing e files) :
  ∃ text, written = [("A.h", text)]
  := by
  rcases written with _ | ⟨⟨header, text⟩, _ | ⟨document, written⟩⟩
  · obtain ⟨rfl, -⟩ := List.cons.inj horder
    obtain rfl := Except.ok.inj h.left
    have hfirst := (ends_addHeader_ok
      (w := { brokenWorld with files := brokenFiles [(["out"], .directory)] })
      stepIn_broken_first).result
    rw [h.failed] at hfirst
    contradiction
  · obtain ⟨rfl, -⟩ := List.cons.inj horder
    exact ⟨text, rfl⟩
  · have hlength := congrArg List.length horder
    simp at hlength

/-- The registry that fails at its second header is in no operation in the end.  It has written the
document of the first header, and none of the second. -/
theorem generate_error_broken :
  ∃ e w' text, (sampleRegistry.generate .default).outcome brokenWorld = (.error e, w') ∧
    w'.progress.operations = [] ∧
    ((sampleRegistry.text [] [] "A.h").outcome brokenWorld).1 = .ok text ∧
    w'.files.get? ["out", "A.qbi"] = some (.file (Utf8.encode text)) ∧
    w'.files.get? ["out", "B.qbi"] = none
  := by
  have hread : ((sampleRegistry.inputs .default).outcome brokenWorld).1 =
      .ok ([], [], ["A.h", "B.h"]) := (ends_inputs brokenWorld).result.trans inputsIn_broken
  have hmade : brokenWorld.files.makeDirectories sampleRegistry.outputDir =
      (.ok (), brokenFiles [(["out"], .directory)]) := makeDirectories_broken
  have hapart : ∀ indices prelude names tree,
      ((sampleRegistry.inputs .default).outcome brokenWorld).1 = .ok (indices, prelude, names) →
      brokenWorld.files.makeDirectories sampleRegistry.outputDir = (.ok (), tree) →
      sampleRegistry.Apart .default tree names := by
    intro indices prelude names tree hinputs hdirectory
    rw [hread] at hinputs
    rw [hmade] at hdirectory
    obtain ⟨-, rfl⟩ := Prod.mk.inj hdirectory
    obtain ⟨-, hnames⟩ := Prod.mk.inj (Except.ok.inj hinputs)
    obtain ⟨-, rfl⟩ := Prod.mk.inj hnames
    decide +kernel
  obtain ⟨w', houtcome⟩ := outcome_broken
  obtain ⟨hoperations, hfailed⟩ := generate_error houtcome hapart
  rcases hfailed with ⟨hunread, -⟩ | ⟨indices, prelude, names, hinputs, -, hfailed⟩
  · rw [hread] at hunread
    contradiction
  rw [hread] at hinputs
  obtain ⟨rfl, hnames⟩ := Prod.mk.inj (Except.ok.inj hinputs)
  obtain ⟨rfl, rfl⟩ := Prod.mk.inj hnames
  rcases hfailed with ⟨cause, -, hunmade, -⟩ |
    ⟨tree, written, failing, rest, hdirectory, -, horder, hstopped⟩
  · rw [hmade] at hunmade
    obtain ⟨hresult, -⟩ := Prod.mk.inj hunmade
    contradiction
  rw [hmade] at hdirectory
  obtain ⟨-, rfl⟩ := Prod.mk.inj hdirectory
  obtain ⟨text, rfl⟩ := exists_of_stopped_broken horder hstopped
  have hwritten := hstopped.compiled _ List.mem_cons_self
  refine ⟨_, w', text, houtcome, hoperations, hwritten, ?_, ?_⟩
  · have hwhole : [("A.h", text)] = [] ++ ("A.h", text) :: [] := rfl
    apply get?_foldlM_put_last hstopped.left hwhole
    · decide +kernel
    · decide +kernel
    · simp
  · rw [hstopped.unchanged]
    · decide +kernel
    · rw [List.forall_mem_singleton]
      dsimp only
      decide +kernel

end ContractInterface.Registry
