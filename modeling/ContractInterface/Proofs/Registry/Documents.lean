import ContractInterface.Proofs.FileName
import ContractInterface.Proofs.Registry.Run

/-!
# The documents of a registry

Every header of a registry that is made has its document written to its path.  The path is
determined by the safe name of the contract, so different headers can share it; then the document
of the last one is there in the end.  Where no document goes nothing changes, and headers that no
document replaces are compiled as if none had been written.
-/

namespace ContractInterface

/-! ### Places of documents -/

namespace FileTree

variable {tree : FileTree} {p : Path}

theorem walk_append {location place : Location} {names names' : List String}
    (h : tree.walk location names = .ok place) :
  tree.walk location (names ++ names') = tree.walk place names'
  := by
  induction names generalizing location with
  | nil =>
      obtain rfl := Except.ok.inj h
      rfl
  | cons name names ih =>
      rcases hnode : tree.get? location with _ | content | _ | _
      · simp [walk, hnode] at h
      · simp [walk, hnode] at h
      · simp only [walk, hnode, List.cons_append] at h ⊢
        split_ifs at h ⊢ with hlong hup
        · exact ih h
        · exact ih h
      · simp [walk, hnode] at h

/-- The place of a name in a directory. -/
theorem eq_of_locate_append {name : String} {base place : Location}
    (hbase : tree.locate p = .ok base) (hname : Path.IsName name) (hpoint : name ≠ ".")
    (hplace : tree.locate (p.append name) = .ok place) :
  place = if name = ".." then base.dropLast else base ++ [name]
  := by
  have happend := p.append_eq hname ""
  rw [String.append_empty, Path.ofString_eq hname, if_neg hpoint] at happend
  rw [happend] at hplace
  obtain ⟨-, -, hwalk⟩ := locate_eq_ok_iff.mp hplace
  rw [walk_append (locate_eq_ok_iff.mp hbase).2.2] at hwalk
  rcases hnode : tree.get? base with _ | content | _ | _
  · simp [walk, hnode] at hwalk
  · simp [walk, hnode] at hwalk
  · simp only [walk, hnode] at hwalk
    split_ifs at hwalk ⊢ with hlong hup
    · exact (Except.ok.inj hwalk).symm
    · exact (Except.ok.inj hwalk).symm
  · simp [walk, hnode] at hwalk

/-- Two names in a directory lead to the same place only if they are the same, unless they lead
to a directory. -/
theorem eq_of_locate_eq {name name' : String} {base place : Location}
    (hbase : tree.locate p = .ok base) (hdirectory : tree.get? base = some .directory)
    (hname : Path.IsName name) (hname' : Path.IsName name')
    (hplace : tree.locate (p.append name) = .ok place)
    (hplace' : tree.locate (p.append name') = .ok place)
    (hnode : tree.get? place ≠ some .directory) :
  name = name'
  := by
  -- a point leads to the directory itself
  have hpoint : ∀ {name}, Path.IsName name → tree.locate (p.append name) = .ok place →
      name ≠ "." := by
    rintro name hname hplace rfl
    have happend := p.append_eq hname ""
    rw [String.append_empty, Path.ofString_eq hname, if_pos rfl, List.append_nil] at happend
    rw [happend, hbase] at hplace
    obtain rfl := Except.ok.inj hplace
    exact hnode hdirectory
  have heq := eq_of_locate_append hbase hname (hpoint hname hplace) hplace
  rw [eq_of_locate_append hbase hname' (hpoint hname' hplace') hplace'] at heq
  have hlength := congrArg List.length heq
  split_ifs at heq hlength with hup' hup hup
  · rw [hup, hup']
  · simp only [List.length_dropLast, List.length_append, List.length_singleton] at hlength
    omega
  · simp only [List.length_dropLast, List.length_append, List.length_singleton] at hlength
    omega
  · simpa using heq.symm

end FileTree

namespace Registry

open Run

variable {r : Registry} {settings : CompilerSettings}

/-- The name that stands for the contract of a header in the name of its document. -/
def stem (header : String) : String :=
  FileName.safeName (FileName.contractName (Path.ofString header))

/-- Headers share the path of their documents exactly if they share the stem. -/
theorem documentPath_eq_iff {header other : String} :
  r.documentPath settings header = r.documentPath settings other ↔ stem header = stem other
  := by
  constructor
  · intro h
    exact Path.eq_of_append_eq (FileName.isName_safeName _) (FileName.isName_safeName _) h
  · intro h
    simp only [stem] at h
    rw [documentPath, documentPath, FileName.document, FileName.document, h]

/-! ### Writing documents one after another -/

section Put

variable {files files' : FileTree} {written : List (String × Text)}

variable (h : written.foldlM (r.put settings) files = .ok files')

include h

/-- Writing documents makes and removes no directories, so paths lead where they led. -/
theorem keepsShape_foldlM_put : files.KeepsShape files'
  := by
  induction written generalizing files with
  | nil =>
      obtain rfl := Except.ok.inj h
      exact .refl files
  | cons document written ih =>
      rw [List.foldlM_cons] at h
      obtain ⟨files'', hput, h⟩ := bind_eq_ok_iff.mp h
      exact (FileTree.keepsShape_write hput).trans (ih h)

/-- Documents change nothing where none of them goes. -/
theorem get?_foldlM_put_of_forall {place : Location}
    (hother : ∀ document ∈ written,
      files.locate (r.documentPath settings document.1) ≠ .ok place) :
  files'.get? place = files.get? place
  := by
  induction written generalizing files with
  | nil =>
      obtain rfl := Except.ok.inj h
      rfl
  | cons document written ih =>
      rw [List.foldlM_cons] at h
      obtain ⟨files'', hput, h⟩ := bind_eq_ok_iff.mp h
      obtain ⟨place', hplace', -⟩ := FileTree.exists_of_write hput
      have hrest : files'.get? place = files''.get? place := by
        apply ih h
        intro later hlater
        rw [ne_eq, (FileTree.keepsShape_write hput).locate_iff]
        exact hother later (List.mem_cons_of_mem document hlater)
      have hne : place ≠ place' := by
        rintro rfl
        exact hother document List.mem_cons_self hplace'
      rw [hrest, FileTree.get?_write_of_ne hput hplace' hne]

variable {before after : List (String × Text)} {header : String} {text : Text}
  (hwritten : written = before ++ (header, text) :: after)

include hwritten

theorem exists_of_foldlM_put :
  ∃ files₁ files₂, before.foldlM (r.put settings) files = .ok files₁ ∧
    r.put settings files₁ (header, text) = .ok files₂ ∧
    after.foldlM (r.put settings) files₂ = .ok files'
  := by
  rw [hwritten, List.foldlM_append] at h
  obtain ⟨files₁, hbefore, h⟩ := bind_eq_ok_iff.mp h
  rw [List.foldlM_cons] at h
  obtain ⟨files₂, hput, hafter⟩ := bind_eq_ok_iff.mp h
  exact ⟨files₁, files₂, hbefore, hput, hafter⟩

/-- Every document that is written has a place that is no directory. -/
theorem exists_place :
  ∃ place, files.locate (r.documentPath settings header) = .ok place ∧
    files.get? place ≠ some .directory
  := by
  obtain ⟨files₁, files₂, hbefore, hput, -⟩ := exists_of_foldlM_put h hwritten
  have hshape := keepsShape_foldlM_put hbefore
  obtain ⟨place, hplace, hnode, -⟩ := FileTree.exists_of_write hput
  rw [ne_eq, hshape.directory_iff] at hnode
  exact ⟨place, hshape.locate_iff.mp hplace, hnode⟩

/-- The last document that goes to a place is there in the end. -/
theorem get?_foldlM_put_last {place : Location}
    (hplace : files.locate (r.documentPath settings header) = .ok place)
    (hsink : files.get? place ≠ some .sink)
    (hlast : ∀ later ∈ after, files.locate (r.documentPath settings later.1) ≠ .ok place) :
  files'.get? place = some (.file (Utf8.encode text))
  := by
  obtain ⟨files₁, files₂, hbefore, hput, hafter⟩ := exists_of_foldlM_put h hwritten
  have hshape := keepsShape_foldlM_put hbefore
  have hsink₁ : files₁.get? place ≠ some .sink := fun hsink₁ => hsink (hshape.sink hsink₁)
  rw [get?_foldlM_put_of_forall hafter]
  · exact FileTree.get?_write_self hput (hshape.locate_iff.mpr hplace) hsink₁
  · intro later hlater
    rw [ne_eq, (FileTree.keepsShape_write hput).locate_iff, hshape.locate_iff]
    exact hlast later hlater

end Put

/-! ### Filling a registry -/

section Fills

variable {environment : Table String} {prelude : Text} {indices : Table Nat}
  {files files' : FileTree} {written : List (String × Text)}

theorem stepIn_eq_ok {header : String} {text : Text}
    (h : r.stepIn settings environment prelude indices files header = .ok (text, files')) :
  r.textIn environment files prelude indices header = .ok text ∧
    r.put settings files (header, text) = .ok files'
  := by
  obtain ⟨text', htext, h⟩ := bind_eq_ok_iff.mp h
  obtain ⟨files'', hput, h⟩ := bind_eq_ok_iff.mp h
  obtain ⟨rfl, rfl⟩ := Prod.mk.inj (Except.ok.inj h)
  exact ⟨htext, mapError_eq_ok_iff.mp hput⟩

variable (h : Fills r settings environment prelude indices files written files')

include h

theorem Fills.foldlM : written.foldlM (r.put settings) files = .ok files'
  := by
  induction h with
  | nil => rfl
  | cons hstep hfills ih =>
      rw [List.foldlM_cons, (stepIn_eq_ok hstep).2]
      exact ih

/-- Every document is compiled from the files that those before it have left. -/
theorem Fills.exists_compiled {before after : List (String × Text)} {header : String} {text : Text}
    (hwritten : written = before ++ (header, text) :: after) :
  ∃ files₁, before.foldlM (r.put settings) files = .ok files₁ ∧
    r.textIn environment files₁ prelude indices header = .ok text
  := by
  induction h generalizing before with
  | nil => cases before with
      | nil => contradiction
      | cons document before => contradiction
  | @cons files files₁ files₂ header' text' written hstep hfills ih =>
      obtain ⟨htext, hput⟩ := stepIn_eq_ok hstep
      cases before with
      | nil =>
          obtain ⟨hdocument, -⟩ := List.cons.inj hwritten
          obtain ⟨rfl, rfl⟩ := Prod.mk.inj hdocument
          exact ⟨files, rfl, htext⟩
      | cons document before =>
          obtain ⟨rfl, hrest⟩ := List.cons.inj hwritten
          rw [List.foldlM_cons, hput]
          exact ih hrest

end Fills

/-- With an ending without slashes, the documents of two headers go to the same place exactly if
the headers share their stem. -/
theorem locate_documentPath_eq_iff {files files' : FileTree} {written : List (String × Text)}
    {base : Location} (hbase : files.locate r.outputDir = .ok base)
    (hdirectory : files.get? base = some .directory)
    (h : written.foldlM (r.put settings) files = .ok files')
    (hsuffix : '/' ∉ settings.outputSuffix.toList) {header other : String}
    (hheader : header ∈ written.map Prod.fst) :
  files.locate (r.documentPath settings header) = files.locate (r.documentPath settings other) ↔
    stem header = stem other
  := by
  constructor
  · intro hlocate
    obtain ⟨⟨_, text⟩, hdocument, rfl⟩ := List.mem_map.mp hheader
    obtain ⟨before, after, hwritten⟩ := List.append_of_mem hdocument
    obtain ⟨place, hplace, hnode⟩ := exists_place h hwritten
    have hname : ∀ header, Path.IsName (stem header ++ settings.outputSuffix) :=
      fun header => (FileName.isName_safeName _).append hsuffix
    have hdocument := FileTree.eq_of_locate_eq hbase hdirectory (hname _) (hname other) hplace
      (hlocate.symm.trans hplace) hnode
    exact (String.append_left_inj _).mp hdocument
  · intro hstem
    rw [documentPath_eq_iff.mpr hstem]

/-- Whether a registry has one document for each header depends on the stems.  The paths of a
registry that is made are different exactly if the stems of its headers are.  Each document is
compiled from the files that those before it have left; it is at its path in the end, unless it is
dropped there or a later document goes to the same place.  With an ending without slashes, that
is the case exactly if the two headers share their stem. -/
theorem documents_of_generate {w w' : World} {paths : List Path}
    (h : (r.generate settings).outcome w = (.ok paths, w')) :
  ∃ indices prelude names tree written,
    ((r.inputs settings).outcome w).1 = .ok (indices, prelude, names) ∧
    w.files.makeDirectories r.outputDir = (.ok (), tree) ∧
    paths = names.map (r.documentPath settings) ∧
    (paths.Nodup ↔ (names.map stem).Nodup) ∧
    written.map Prod.fst = names ∧ written.foldlM (r.put settings) tree = .ok w'.files ∧
    (∀ before header text after, written = before ++ (header, text) :: after →
      (∃ files, before.foldlM (r.put settings) tree = .ok files ∧
        ((r.text prelude indices header).outcome { w with files }).1 = .ok text) ∧
      (tree.lookUp (r.documentPath settings header) ≠ .ok (some .sink) →
        (∀ later ∈ after, tree.locate (r.documentPath settings later.1) ≠
          tree.locate (r.documentPath settings header)) →
        w'.files.read (r.documentPath settings header) = .ok (Utf8.encode text))) ∧
    ('/' ∉ settings.outputSuffix.toList → ∀ header ∈ names, ∀ other ∈ names,
      tree.locate (r.documentPath settings header) = tree.locate (r.documentPath settings other) ↔
        stem header = stem other)
  := by
  obtain ⟨hcourse, -⟩ := course_of_generate h
  cases hcourse with
  | @finished indices prelude names written tree files' hinputs hdirectory hwritten hfills =>
      have hmakes := FileTree.makes_makeDirectories w.files r.outputDir
      rw [hdirectory] at hmakes
      refine ⟨indices, prelude, names, tree, written, (ends_inputs w).result.trans hinputs,
        hdirectory, rfl, ?_, hwritten, hfills.foldlM, ?_, ?_⟩
      · simp only [List.Nodup, List.pairwise_map, ne_eq, documentPath_eq_iff]
      · intro before header text after hsplit
        obtain ⟨files₁, hbefore, htext⟩ := hfills.exists_compiled hsplit
        obtain ⟨place, hplace, -⟩ := exists_place hfills.foldlM hsplit
        refine ⟨⟨files₁, hbefore, (ends_text _ _ _ _).result.trans htext⟩, ?_⟩
        intro hsink hlater
        have hsink : tree.get? place ≠ some .sink := by
          intro hnode
          apply hsink
          rw [FileTree.lookUp, hplace, ← hnode]
        have hlater : ∀ later ∈ after,
            tree.locate (r.documentPath settings later.1) ≠ .ok place := by
          intro later hmem
          rw [← hplace]
          exact hlater later hmem
        have hshape := keepsShape_foldlM_put hfills.foldlM
        exact FileTree.read_eq_ok (hshape.locate_iff.mpr hplace)
          (get?_foldlM_put_last hfills.foldlM hsplit hplace hsink hlater)
      · intro hsuffix header hheader other hother
        obtain ⟨base, hbase, hbaseDirectory⟩ := hmakes.there rfl
        rw [← hwritten] at hheader
        exact locate_documentPath_eq_iff hbase hbaseDirectory hfills.foldlM hsuffix hheader

/-! ### Headers that share a path -/

/-- A registry of the headers in one directory. -/
def sampleRegistry : Registry :=
  { contractDef := .ofString "def.h"
    contractsDir := .ofString "contracts"
    outputDir := .ofString "out"
    sourceRepo := none
    sourceRevision := none
    generatorVersion := none }

/-- The document that a header of that registry has in given files. -/
def sampleText (files : FileTree) (header : String) : Text :=
  (sampleRegistry.textIn [] files [] [] header).toOption.getD []

/-- Two headers whose names differ in a character that is not safe, and further files. -/
def collidingFiles (others : List (Location × Node)) : FileTree :=
  { nodes :=
      [(["contracts"], .directory), (["contracts", "A B.h"], .file []),
        (["contracts", "A_B.h"], .file []), (["contracts", "qpi.h"], .file []),
        (["def.h"], .file [])] ++ others
    cwd := [] }

/-- A world with these headers. -/
def collidingWorld : World :=
  { files := collidingFiles []
    environment := []
    clock := ⟨"now", "now", "0.00", "1.0"⟩
    events := []
    progress := .start }

/-- The files with the document of one of these headers. -/
def collidingFilled (header : String) : FileTree :=
  collidingFiles [(["out"], .directory),
    (["out", "A_B.qbi"], .file (Utf8.encode (sampleText (collidingFiles []) header)))]

theorem headers_colliding :
  sampleRegistry.headers .default (collidingFiles []) = .ok ["A B.h", "A_B.h"]
  := by
  have hplace : (collidingFiles []).locate sampleRegistry.contractsDir = .ok ["contracts"] := by
    decide +kernel
  have hlist : (collidingFiles []).list sampleRegistry.contractsDir =
      .ok ["A B.h", "A_B.h", "qpi.h"] :=
    FileTree.list_of_pairwise hplace (by decide +kernel) (by decide +kernel) (by decide +kernel)
  rw [headers, hlist]
  decide +kernel

theorem course_colliding :
  Course sampleRegistry .default [] (collidingFiles [])
    (.ok [.ofString "out/A_B.qbi", .ofString "out/A_B.qbi"]) (collidingFilled "A_B.h")
  := by
  have hinputs : sampleRegistry.inputsIn .default (collidingFiles []) =
      .ok ([], [], ["A B.h", "A_B.h"]) := by
    rw [inputsIn_eq_ok_iff]
    exact ⟨by decide +kernel, by decide +kernel, headers_colliding⟩
  have hdirectory : (collidingFiles []).makeDirectories sampleRegistry.outputDir =
      (.ok (), collidingFiles [(["out"], .directory)]) := by
    decide +kernel
  have hfirst : sampleRegistry.stepIn .default [] [] []
      (collidingFiles [(["out"], .directory)]) "A B.h" =
      .ok (sampleText (collidingFiles []) "A B.h", collidingFilled "A B.h") := by
    decide +kernel
  have hsecond : sampleRegistry.stepIn .default [] [] [] (collidingFilled "A B.h") "A_B.h" =
      .ok (sampleText (collidingFiles []) "A_B.h", collidingFilled "A_B.h") := by
    decide +kernel
  exact .finished hinputs hdirectory rfl (.cons hfirst (.cons hsecond .nil))

theorem outcome_colliding :
  ∃ w', (sampleRegistry.generate .default).outcome collidingWorld =
      (.ok [.ofString "out/A_B.qbi", .ofString "out/A_B.qbi"], w') ∧
    w'.files = collidingFilled "A_B.h"
  := by
  have hcourse : Course sampleRegistry .default collidingWorld.environment
      collidingWorld.files _ _ := course_colliding
  obtain ⟨w', houtcome, hfiles, -⟩ := hcourse.exists_outcome
  exact ⟨w', houtcome, hfiles⟩

/-- The colliding headers share their path because they share their stem. -/
theorem documents_of_generate_colliding :
  ∃ paths w', (sampleRegistry.generate .default).outcome collidingWorld = (.ok paths, w') ∧
    ¬ paths.Nodup ∧ ¬ (["A B.h", "A_B.h"].map stem).Nodup
  := by
  obtain ⟨w', houtcome, -⟩ := outcome_colliding
  obtain ⟨indices, prelude, names, tree, written, hinputs, -, -, hnodup, -⟩ :=
    documents_of_generate houtcome
  have hread := (ends_inputs collidingWorld).result.symm.trans hinputs
  have hnames := headers_colliding.symm.trans (inputsIn_eq_ok_iff.mp hread).2.2
  obtain rfl := Except.ok.inj hnames
  refine ⟨_, w', houtcome, ?_, ?_⟩
  · decide +kernel
  · rw [← hnodup]
    decide +kernel

/-- Both documents of the colliding headers are written to one path, and the first one is lost. -/
theorem generate_colliding :
  ∃ w' text, (sampleRegistry.generate .default).outcome collidingWorld =
      (.ok [.ofString "out/A_B.qbi", .ofString "out/A_B.qbi"], w') ∧
    sampleRegistry.headers .default collidingWorld.files = .ok ["A B.h", "A_B.h"] ∧
    ((sampleRegistry.text [] [] "A B.h").outcome collidingWorld).1 = .ok text ∧
    w'.files.read (sampleRegistry.documentPath .default "A B.h") ≠ .ok (Utf8.encode text)
  := by
  obtain ⟨w', houtcome, hfiles⟩ := outcome_colliding
  refine ⟨w', sampleText (collidingFiles []) "A B.h", houtcome, headers_colliding, ?_, ?_⟩
  · rw [(ends_text _ _ _ _).result]
    decide +kernel
  · rw [hfiles]
    decide +kernel

end Registry

end ContractInterface
