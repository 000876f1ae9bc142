import ContractInterface.Proofs.Registry.Failure
import ContractInterface.Proofs.Registry.SingleFile

/-!
# Making a registry again

A registry that has been made is made again from the same inputs, since its documents replace
neither the list of contracts nor the prelude nor a header.  The new entries of the directory of
the headers are looked at, but they are no headers.  The same documents are written to the same
places in the same order, so all files stay as they are.  The only thing that can go wrong is that
the path of a new entry is too long to be looked at, and then nothing is written.
-/

namespace ContractInterface

namespace FileTree

variable {tree tree' : FileTree} {p : Path} {base : Location}

/-! ### Directories that are there -/

/-- A name leads from a directory to a place that does not depend on the rest of the tree. -/
theorem locate_append_congr {name : String} (hbase : tree.locate p = .ok base)
    (hbase' : tree'.locate p = .ok base) (hdirectory : tree.get? base = some .directory)
    (hdirectory' : tree'.get? base = some .directory) (hname : Path.ofString name = ⟨"", [name]⟩) :
  tree'.locate (p.append name) = tree.locate (p.append name)
  := by
  have happend : p.append name = { p with parts := p.parts ++ [name] } := by
    simp [Path.append, Path.join, hname]
  obtain ⟨-, -, hwalk⟩ := locate_eq_ok_iff.mp hbase
  obtain ⟨-, -, hwalk'⟩ := locate_eq_ok_iff.mp hbase'
  rw [happend, locate, locate, walk_append hwalk, walk_append hwalk']
  simp only [walk, hdirectory, hdirectory']

/-- A directory that is there need not be made. -/
theorem makeDirectories_of_directory (hbase : tree.locate p = .ok base)
    (hdirectory : tree.get? base = some .directory) :
  tree.makeDirectories p = (.ok (), tree)
  := by
  have hmake : tree.makeDirectory p = .error (.refused .exists p) := by
    rw [makeDirectory, hbase]
    simp only [bind, Except.bind, hdirectory]
    rfl
  have hthere : tree.isDirectory p = .ok true := by
    rw [isDirectory, lookUp, hbase]
    simp only [hdirectory]
    rfl
  have hprovide : tree.provideDirectory p = .ok tree := by
    rw [provideDirectory, hmake]
    simp only [hthere]
    rfl
  rw [makeDirectories]
  cases p.parts.length with
  | zero => rw [makeWithin, hprovide, change]
  | succ depth =>
      rw [makeWithin, hprovide]
      rfl

/-- A file can be written where there is no directory. -/
theorem exists_write {place : Location} (hplace : tree.locate p = .ok place)
    (hdirectory : tree.get? place ≠ some .directory) (content : List UInt8) :
  ∃ tree', tree.write p content = .ok tree'
  := by
  rw [write, hplace]
  simp only [bind, Except.bind]
  rcases hnode : tree.get? place with _ | old | _ | _
  · exact ⟨_, rfl⟩
  · exact ⟨_, rfl⟩
  · contradiction
  · exact ⟨_, rfl⟩

theorem get?_write_of_sink {content : List UInt8} {place : Location}
    (h : tree.write p content = .ok tree') (hsink : tree.get? place = some .sink) :
  tree'.get? place = some .sink
  := by
  obtain ⟨place', hplace', -⟩ := exists_of_write h
  by_cases heq : place = place'
  · rw [get?_write_sink h hplace' (heq ▸ hsink), hsink]
  · rw [get?_write_of_ne h hplace' heq, hsink]

theorem exists_of_read {content : List UInt8} (h : tree.read p = .ok content) :
  ∃ place node, tree.locate p = .ok place ∧ tree.get? place = some node
  := by
  obtain ⟨place, hplace, h⟩ := bind_eq_ok_iff.mp h
  rcases hnode : tree.get? place with _ | node
  · rw [hnode] at h
    cases h
  · exact ⟨place, node, hplace, hnode⟩

end FileTree

namespace Registry

open Run

variable {r : Registry} {settings : CompilerSettings}

/-! ### Writing the same documents again -/

section Put

variable {tree files files' : FileTree} {written : List (String × Text)}

theorem get?_foldlM_put_of_sink (h : written.foldlM (r.put settings) tree = .ok files)
    {place : Location} (hsink : tree.get? place = some .sink) :
  files.get? place = some .sink
  := by
  induction written generalizing tree with
  | nil =>
      obtain rfl := Except.ok.inj h
      exact hsink
  | cons document written ih =>
      rw [List.foldlM_cons] at h
      obtain ⟨tree', hput, h⟩ := bind_eq_ok_iff.mp h
      exact ih h (FileTree.get?_write_of_sink hput hsink)

theorem extends_foldlM_put (h : written.foldlM (r.put settings) tree = .ok files) :
  tree.Extends files
  := by
  induction written generalizing tree with
  | nil =>
      obtain rfl := Except.ok.inj h
      exact .refl tree
  | cons document written ih =>
      rw [List.foldlM_cons] at h
      obtain ⟨tree', hput, h⟩ := bind_eq_ok_iff.mp h
      exact (FileTree.Extends.write hput).trans (ih h)

/-- Of the documents that go to a place, one is the last. -/
theorem exists_last {place : Location}
    (h : ∃ document ∈ written, tree.locate (r.documentPath settings document.1) = .ok place) :
  ∃ before header text after, written = before ++ (header, text) :: after ∧
    tree.locate (r.documentPath settings header) = .ok place ∧
    ∀ later ∈ after, tree.locate (r.documentPath settings later.1) ≠ .ok place
  := by
  induction written with
  | nil =>
      obtain ⟨document, hdocument, -⟩ := h
      cases hdocument
  | cons first written ih =>
      by_cases hlater : ∃ document ∈ written,
          tree.locate (r.documentPath settings document.1) = .ok place
      · obtain ⟨before, header, text, after, rfl, hlast⟩ := ih hlater
        exact ⟨first :: before, header, text, after, rfl, hlast⟩
      · obtain ⟨document, hdocument, hplace⟩ := h
        rcases List.mem_cons.mp hdocument with rfl | hdocument
        · exact ⟨[], document.1, document.2, written, rfl, hplace,
            fun later hmem hplace' => hlater ⟨later, hmem, hplace'⟩⟩
        · exact (hlater ⟨document, hdocument, hplace⟩).elim

/-- Documents that are written a second time change nothing. -/
theorem get?_foldlM_put_again (h : written.foldlM (r.put settings) tree = .ok files)
    (h' : written.foldlM (r.put settings) files = .ok files') (place : Location) :
  files'.get? place = files.get? place
  := by
  have hshape := keepsShape_foldlM_put h
  by_cases hplace : ∃ document ∈ written,
      tree.locate (r.documentPath settings document.1) = .ok place
  · obtain ⟨before, header, text, after, hwritten, hplace, hlast⟩ := exists_last hplace
    by_cases hsink : tree.get? place = some .sink
    · have hkept := get?_foldlM_put_of_sink h hsink
      rw [hkept, get?_foldlM_put_of_sink h' hkept]
    · have hfirst := get?_foldlM_put_last h hwritten hplace hsink hlast
      rw [hfirst]
      apply get?_foldlM_put_last h' hwritten (hshape.locate_iff.mpr hplace)
      · rw [hfirst]
        simp
      · intro later hlater
        rw [ne_eq, hshape.locate_iff]
        exact hlast later hlater
  · apply get?_foldlM_put_of_forall h'
    intro document hdocument hplace'
    exact hplace ⟨document, hdocument, hshape.locate_iff.mp hplace'⟩

end Put

/-! ### What the documents leave alone -/

/-- A path leads to nothing that a registry is made from: neither to the list of contracts nor to
the prelude, and to no header. -/
structure Spares (r : Registry) (settings : CompilerSettings) (files : FileTree) (p : Path) :
    Prop where
  contractDef : files.locate p ≠ files.locate r.contractDef
  prelude : files.locate p ≠ files.locate (r.contractsDir.append settings.preludeHeader)
  header : ∀ name : String, '/' ∉ name.toList →
    FileName.isContractHeader name settings.preludeHeader →
    files.locate p ≠ files.locate (r.contractsDir.append name)

/-- The place of a header. -/
theorem eq_of_locate_header {files : FileTree} {base place : Location} {name : String}
    (hbase : files.locate r.contractsDir = .ok base)
    (hheader : FileName.isContractHeader name settings.preludeHeader)
    (hslash : '/' ∉ name.toList)
    (hplace : files.locate (r.contractsDir.append name) = .ok place) :
  place = base ++ [name]
  := by
  obtain ⟨c, t, hname, hc⟩ := FileName.exists_of_isContractHeader hheader
  have hne : ∀ other : String, other.toList.head?.any Char.isUpper = false → name ≠ other := by
    rintro _ hother rfl
    simp [hname, hc] at hother
  have heq := FileTree.eq_of_locate_append hbase ⟨hne "" rfl, hslash⟩ (hne "." rfl) hplace
  rwa [if_neg (hne ".." rfl)] at heq

section Made

variable {files tree files' : FileTree} {written : List (String × Text)}
  (hgains : FileTree.GainsDirectories r.outputDir files tree)
  (hput : written.foldlM (r.put settings) tree = .ok files')

include hgains hput

theorem keepsDirectories_made : files.KeepsDirectories files'
  := by
  have hshape := keepsShape_foldlM_put hput
  exact ⟨hshape.cwd.trans hgains.cwd, fun h => hshape.directory_iff.mpr (hgains.kept h)⟩

/-- Where no document goes, nothing that was there has changed, and only directories are new. -/
theorem get?_made {place : Location}
    (hother : ∀ document ∈ written,
      files'.locate (r.documentPath settings document.1) ≠ .ok place) :
  files'.get? place = files.get? place ∨
    files.get? place = none ∧ files'.get? place = some .directory
  := by
  have hshape := keepsShape_foldlM_put hput
  have hkept : files'.get? place = tree.get? place := by
    apply get?_foldlM_put_of_forall hput
    intro document hdocument hplace
    exact hother document hdocument (hshape.locate_iff.mpr hplace)
  rw [hkept]
  rcases hnode : files.get? place with _ | node
  · rcases hgains.added hnode with hnone | ⟨hdirectory, -⟩
    · exact .inl hnone
    · exact .inr ⟨rfl, hdirectory⟩
  · exact .inl (hgains.kept hnode)

theorem read_made {q : Path} {content : List UInt8} (hread : files.read q = .ok content)
    (hother : ∀ document ∈ written,
      files'.locate (r.documentPath settings document.1) ≠ files'.locate q) :
  files'.read q = files.read q
  := by
  obtain ⟨place, node, hplace, hnode⟩ := FileTree.exists_of_read hread
  have hplace' := (keepsDirectories_made hgains hput).locate hplace
  apply FileTree.read_eq_read hplace hplace'
  rw [hplace'] at hother
  rcases get?_made hgains hput hother with heq | ⟨hnone, -⟩
  · exact heq
  · rw [hnode] at hnone
    cases hnone

theorem readText_made {q : Path} {t : Text} (hread : files.readText q = .ok t)
    (hother : ∀ document ∈ written,
      files'.locate (r.documentPath settings document.1) ≠ files'.locate q) :
  files'.readText q = files.readText q
  := by
  obtain ⟨content, hcontent, -⟩ := bind_eq_ok_iff.mp hread
  rw [FileTree.readText, FileTree.readText,
    read_made hgains hput (mapError_eq_ok_iff.mp hcontent) hother]

theorem indicesIn_made {indices : Table Nat} (hindices : indicesIn files r.contractDef = .ok indices)
    (hother : ∀ document ∈ written,
      files'.locate (r.documentPath settings document.1) ≠ files'.locate r.contractDef) :
  indicesIn files' r.contractDef = .ok indices
  := by
  obtain ⟨text, htext, -⟩ := bind_eq_ok_iff.mp hindices
  rw [indicesIn, readText_made hgains hput (mapError_eq_ok_iff.mp htext) hother]
  exact hindices

/-- The headers of a registry are still its headers, as long as all entries of its directory can
be looked at. -/
theorem headers_made {names : List String} (hnames : r.headers settings files = .ok names)
    (hextends : files.Extends files') (hnamed : files'.WellNamed)
    (hspares : ∀ document ∈ written,
      r.Spares settings files' (r.documentPath settings document.1))
    {base : Location} (hlistable : files'.Listable r.contractsDir base) :
  r.headers settings files' = .ok names
  := by
  obtain ⟨base', hbase, rfl⟩ := headers_eq_ok_iff.mp hnames
  have hbase' := (keepsDirectories_made hgains hput).locate hbase.locate
  obtain rfl := Except.ok.inj (hlistable.locate.symm.trans hbase')
  have hsame : ∀ name ∈ files'.entries base,
      (FileName.isContractHeader name settings.preludeHeader &&
        files'.leadsToFile (r.contractsDir.append name)) =
      (FileName.isContractHeader name settings.preludeHeader &&
        files.leadsToFile (r.contractsDir.append name)) := by
    intro name hname
    cases hheader : FileName.isContractHeader name settings.preludeHeader with
    | false => rw [Bool.false_and, Bool.false_and]
    | true =>
        have hslash := hnamed.slashless hname
        have hlocate := FileTree.locate_append_congr hbase.locate hlistable.locate hbase.directory
          hlistable.directory (FileName.ofString_of_isContractHeader hheader hslash)
        rw [Bool.true_and, Bool.true_and, Bool.eq_iff_iff, FileTree.leadsToFile_iff,
          FileTree.leadsToFile_iff]
        apply exists_congr
        intro place
        apply exists_congr
        intro content
        rw [hlocate]
        apply and_congr_right
        intro hplace
        have hother : ∀ document ∈ written,
            files'.locate (r.documentPath settings document.1) ≠ .ok place := by
          rw [← hplace, ← hlocate]
          exact fun document hdocument => (hspares document hdocument).header name hslash hheader
        rcases get?_made hgains hput hother with heq | ⟨hnone, hdirectory⟩
        · rw [heq]
        · simp [hnone, hdirectory]
  rw [headers_eq_ok_iff]
  refine ⟨base, hlistable, Eq.symm (hextends.filter_entries ?_ ?_)⟩
  · intro name hname
    exact hsame name (hextends.mem_entries hname)
  · intro name hname hfresh
    rw [hsame name hname, ← Bool.not_eq_true, Bool.and_eq_true]
    rintro ⟨hheader, hfile⟩
    obtain ⟨place, content, hplace, hcontent⟩ := FileTree.leadsToFile_iff.mp hfile
    rw [eq_of_locate_header hbase.locate hheader (hnamed.slashless hname) hplace] at hcontent
    rw [FileTree.get?_eq_none (by simp) (mt FileTree.mem_entries.mpr hfresh)] at hcontent
    cases hcontent

/-- A registry is still made from the same things. -/
theorem inputsIn_made {indices : Table Nat} {prelude : Text} {names : List String}
    (hinputs : r.inputsIn settings files = .ok (indices, prelude, names))
    (hextends : files.Extends files') (hnamed : files'.WellNamed)
    (hspares : ∀ document ∈ written,
      r.Spares settings files' (r.documentPath settings document.1))
    {base : Location} (hlistable : files'.Listable r.contractsDir base) :
  r.inputsIn settings files' = .ok (indices, prelude, names)
  := by
  obtain ⟨hindices, hprelude, hnames⟩ := inputsIn_eq_ok_iff.mp hinputs
  rw [inputsIn_eq_ok_iff, ← hprelude]
  refine ⟨?_, ?_, headers_made hgains hput hnames hextends hnamed hspares hlistable⟩
  · exact indicesIn_made hgains hput hindices
      fun document hdocument => (hspares document hdocument).contractDef
  · exact readText_made hgains hput hprelude
      fun document hdocument => (hspares document hdocument).prelude

end Made

/-! ### The second run -/

/-- The documents of given headers are determined by what the headers are compiled to. -/
theorem eq_of_map_fst_eq {compiled : String → Except Failure Text}
    {written written' : List (String × Text)}
    (h : ∀ document ∈ written, compiled document.1 = .ok document.2)
    (h' : ∀ document ∈ written', compiled document.1 = .ok document.2)
    (hheaders : written'.map Prod.fst = written.map Prod.fst) :
  written' = written
  := by
  have heq : ∀ {documents : List (String × Text)},
      (∀ document ∈ documents, compiled document.1 = .ok document.2) →
      documents = (documents.map Prod.fst).map fun header =>
        (header, (compiled header).toOption.getD []) := by
    intro documents hdocuments
    have hid : ∀ document ∈ documents,
        (document.1, (compiled document.1).toOption.getD []) = id document := by
      intro document hdocument
      rw [hdocuments document hdocument]
      rfl
    rw [List.map_map]
    exact ((List.map_congr_left hid).trans (List.map_id documents)).symm
  rw [heq h, heq h', hheaders]

section Again

variable {environment : Table String} {prelude : Text} {indices : Table Nat} {names : List String}
  {files tree files' : FileTree} {written : List (String × Text)}
  (hgains : FileTree.GainsDirectories r.outputDir files tree)
  (hnames : r.headers settings files = .ok names)
  (hwritten : written.map Prod.fst = names)
  (hfills : Fills r settings environment prelude indices tree written files')
  (hapart : r.Apart settings files' names)

include hgains hnames hwritten hfills hapart

/-- The headers are compiled to the same documents again. -/
theorem textIn_made :
  ∀ document ∈ written,
    r.textIn environment files' prelude indices document.1 = .ok document.2
  := by
  have hshape := keepsShape_foldlM_put hfills.foldlM
  have hsubset : written.map Prod.fst ⊆ names := hwritten ▸ List.Subset.refl _
  have hbefore : r.Apart settings tree names := by
    intro header hheader other hother heq
    rw [← hwritten] at hheader
    obtain ⟨⟨_, text⟩, hdocument, rfl⟩ := List.mem_map.mp hheader
    obtain ⟨before, after, hsplit⟩ := List.append_of_mem hdocument
    obtain ⟨place, hplace, -⟩ := exists_place hfills.foldlM hsplit
    apply hapart _ (hsubset hheader) other hother
    rw [hshape.locate_iff.mpr hplace, hshape.locate_iff.mpr (heq.symm.trans hplace)]
  intro document hdocument
  have hheader := hsubset (List.mem_map_of_mem hdocument)
  rw [textIn_congr (read_header_of_apart hnames hgains hbefore hsubset hfills.foldlM hheader)]
  exact textIn_of_apart hnames hgains hbefore hsubset hfills document hdocument

/-- If the headers are found again, their documents can be written again. -/
theorem exists_fills_again (hagain : r.headers settings files' = .ok names) :
  ∃ files'', Fills r settings environment prelude indices files' written files''
  := by
  have hrefl := FileTree.GainsDirectories.refl r.outputDir files'
  have htext := textIn_made hgains hnames hwritten hfills hapart
  rcases fills_cases r settings environment prelude indices files' names with
    ⟨written', files'', hwritten', hfills'⟩ |
    ⟨done, failing, rest, written', files₁, e, horder, hdone, hfills', hstep⟩
  · have htext' := textIn_of_apart hagain hrefl hapart
      (hwritten' ▸ List.Subset.refl _) hfills'
    obtain rfl := eq_of_map_fst_eq htext htext' (hwritten'.trans hwritten.symm)
    exact ⟨files'', hfills'⟩
  · -- the first run has written the document of every header
    exfalso
    have hfailing : failing ∈ names := by simp [horder]
    have hsubset : written'.map Prod.fst ⊆ names := by
      rw [hdone, horder]
      exact List.subset_append_left done (failing :: rest)
    have hread := read_header_of_apart hagain hrefl hapart hsubset hfills'.foldlM hfailing
    rw [← hwritten] at hfailing
    obtain ⟨⟨_, text⟩, hdocument, rfl⟩ := List.mem_map.mp hfailing
    obtain ⟨before, after, hsplit⟩ := List.append_of_mem hdocument
    obtain ⟨place, hplace, hnode⟩ := exists_place hfills.foldlM hsplit
    have hshape := (keepsShape_foldlM_put hfills.foldlM).trans
      (keepsShape_foldlM_put hfills'.foldlM)
    rw [← hshape.locate_iff] at hplace
    rw [ne_eq, ← hshape.directory_iff] at hnode
    obtain ⟨files₂, hwrite⟩ := FileTree.exists_write hplace hnode (Utf8.encode text)
    rw [stepIn, textIn_congr hread, htext _ hdocument] at hstep
    simp only [bind, Except.bind, put_eq, hwrite] at hstep
    cases hstep

end Again

/-- Documents that spare all headers are apart from those of a registry. -/
theorem apart_of_spares {names : List String} {files : FileTree}
    (hnames : r.headers settings files = .ok names) (hnamed : files.WellNamed)
    (hspares : ∀ header ∈ names, r.Spares settings files (r.documentPath settings header)) :
  r.Apart settings files names
  := by
  intro header hheader other hother
  have hslash : '/' ∉ other.toList := by
    obtain ⟨base, -, rfl⟩ := headers_eq_ok_iff.mp hnames
    exact hnamed.slashless (List.mem_filter.mp hother).1
  exact (hspares header hheader).header other hslash (isContractHeader_of_mem hnames hother)

/-- The course that a registry takes after it has been made. -/
theorem course_again {environment : Table String} {files files' : FileTree} {paths : List Path}
    (h : Course r settings environment files (.ok paths) files') (hnamed : files'.WellNamed)
    (hspares : ∀ p ∈ paths, r.Spares settings files' p) :
  ∃ result files'', Course r settings environment files' result files'' ∧
    (∀ place, files''.get? place = files'.get? place) ∧
    (result = .ok paths ∨ ∃ e, result = .error e) ∧
    (result = .ok paths ↔ ∀ base, files'.locate r.contractsDir = .ok base →
      ∀ name ∈ files'.entries base, ¬ files'.TooLong (r.contractsDir.append name))
  := by
  cases h with
  | @finished indices prelude names written tree _ hinputs hdirectory hwritten hfills =>
      have hmakes := FileTree.makes_makeDirectories files r.outputDir
      have hextends := FileTree.Extends.makeWithin r.outputDir.parts.length files r.outputDir
      rw [← FileTree.makeDirectories] at hextends
      rw [hdirectory] at hmakes hextends
      have hput := hfills.foldlM
      have hspares : ∀ header ∈ names,
          r.Spares settings files' (r.documentPath settings header) :=
        fun header hheader => hspares _ (List.mem_map_of_mem hheader)
      have hspares' : ∀ document ∈ written,
          r.Spares settings files' (r.documentPath settings document.1) :=
        fun document hdocument => hspares _ (hwritten ▸ List.mem_map_of_mem hdocument)
      have hnames := (inputsIn_eq_ok_iff.mp hinputs).2.2
      obtain ⟨base, hbase, -⟩ := headers_eq_ok_iff.mp hnames
      have hkeeps := keepsDirectories_made hmakes.gains hput
      have hbase' := hkeeps.locate hbase.locate
      rw [hbase']
      by_cases hentries : ∀ name ∈ files'.entries base,
          ¬ files'.TooLong (r.contractsDir.append name)
      · have hlistable : files'.Listable r.contractsDir base :=
          ⟨hbase', hkeeps.directory hbase.directory, hentries⟩
        have hinputs' := inputsIn_made hmakes.gains hput hinputs
          (hextends.trans (extends_foldlM_put hput)) hnamed hspares' hlistable
        have hagain := (inputsIn_eq_ok_iff.mp hinputs').2.2
        obtain ⟨place, hplace, hnode⟩ := hmakes.there rfl
        have hshape := keepsShape_foldlM_put hput
        have hdirectory' := FileTree.makeDirectories_of_directory (hshape.locate_iff.mpr hplace)
          (hshape.directory_iff.mpr hnode)
        obtain ⟨files'', hfills'⟩ := exists_fills_again hmakes.gains hnames hwritten hfills
          (apart_of_spares hagain hnamed hspares) hagain
        refine ⟨_, files'', .finished hinputs' hdirectory' hwritten hfills',
          get?_foldlM_put_again hput hfills'.foldlM, .inl rfl, iff_of_true rfl ?_⟩
        rintro _ ⟨⟩
        exact hentries
      · rcases hinputs' : r.inputsIn settings files' with e | ⟨indices', prelude', names'⟩
        · exact ⟨.error e, files', .unread hinputs', fun _ => rfl, .inr ⟨e, rfl⟩,
            iff_of_false (by simp) fun hall => hentries (hall base rfl)⟩
        · obtain ⟨-, -, hnames'⟩ := inputsIn_eq_ok_iff.mp hinputs'
          obtain ⟨base', hlistable, -⟩ := headers_eq_ok_iff.mp hnames'
          obtain rfl := Except.ok.inj (hlistable.locate.symm.trans hbase')
          exact (hentries hlistable.entries).elim

/-- A registry that has been made can be made again at any time, if its documents have not replaced
what it is made from: the same paths are returned, exactly if all entries that its directory has
now can be looked at, and otherwise it fails.  In both cases everything stays as it is. -/
theorem generate_again {w w' : World} {paths : List Path}
    (h : (r.generate settings).outcome w = (.ok paths, w')) (hnamed : w'.files.WellNamed)
    (hspares : ∀ p ∈ paths, r.Spares settings w'.files p) (clock : Clock) :
  ∃ result w'', (r.generate settings).outcome { w' with clock } = (result, w'') ∧
    (∀ place, w''.files.get? place = w'.files.get? place) ∧
    (result = .ok paths ∨ ∃ e, result = .error e) ∧
    (result = .ok paths ↔ ∀ base, w'.files.locate r.contractsDir = .ok base →
      ∀ name ∈ w'.files.entries base, ¬ w'.files.TooLong (r.contractsDir.append name))
  := by
  obtain ⟨hcourse, -⟩ := course_of_generate h
  obtain ⟨result, files'', hagain, hkept, hresult⟩ := course_again hcourse hnamed hspares
  rw [← environment_of_generate h] at hagain
  obtain ⟨w'', houtcome, rfl, -⟩ := Course.exists_outcome (w := { w' with clock }) hagain
  exact ⟨result, w'', houtcome, hkept, hresult⟩

/-- The registry of the colliding headers with its documents beside the headers. -/
def innerRegistry : Registry :=
  { sampleRegistry with outputDir := .ofString "contracts" }

/-- The files with the document of one of these headers beside them. -/
def innerFilled (header : String) : FileTree :=
  collidingFiles [(["contracts", "A_B.qbi"],
    .file (Utf8.encode (sampleText (collidingFiles []) header)))]

theorem outcome_inner :
  ∃ w', (innerRegistry.generate .default).outcome collidingWorld =
      (.ok [.ofString "contracts/A_B.qbi", .ofString "contracts/A_B.qbi"], w') ∧
    w'.files = innerFilled "A_B.h"
  := by
  have hinputs : innerRegistry.inputsIn .default collidingWorld.files =
      .ok ([], [], ["A B.h", "A_B.h"]) := by
    rw [inputsIn_eq_ok_iff]
    exact ⟨by decide +kernel, by decide +kernel, headers_colliding⟩
  have hdirectory : collidingWorld.files.makeDirectories innerRegistry.outputDir =
      (.ok (), collidingFiles []) := by
    decide +kernel
  have hfirst : innerRegistry.stepIn .default collidingWorld.environment [] []
      (collidingFiles []) "A B.h" =
      .ok (sampleText (collidingFiles []) "A B.h", innerFilled "A B.h") := by
    decide +kernel
  have hsecond : innerRegistry.stepIn .default collidingWorld.environment [] []
      (innerFilled "A B.h") "A_B.h" =
      .ok (sampleText (collidingFiles []) "A_B.h", innerFilled "A_B.h") := by
    decide +kernel
  have hcourse : Course innerRegistry .default collidingWorld.environment collidingWorld.files
      _ _ := .finished hinputs hdirectory rfl (.cons hfirst (.cons hsecond .nil))
  obtain ⟨w', houtcome, hfiles, -⟩ := hcourse.exists_outcome
  exact ⟨w', houtcome, hfiles⟩

/-- The documents of the colliding headers are made again beside the headers. -/
theorem generate_again_inner :
  ∃ paths w' w'', (innerRegistry.generate .default).outcome collidingWorld = (.ok paths, w') ∧
    (innerRegistry.generate .default).outcome
      { w' with clock := ⟨"later", "later", "0.01", "2.0"⟩ } = (.ok paths, w'') ∧
    ∀ place, w''.files.get? place = w'.files.get? place
  := by
  obtain ⟨w', houtcome, hfiles⟩ := outcome_inner
  have hbase : w'.files.locate innerRegistry.contractsDir = .ok ["contracts"] := by
    rw [hfiles]
    decide +kernel
  have hspares : ∀ p ∈ [Path.ofString "contracts/A_B.qbi", Path.ofString "contracts/A_B.qbi"],
      innerRegistry.Spares .default w'.files p := by
    intro p hp
    obtain rfl : p = .ofString "contracts/A_B.qbi" := by simpa using hp
    have hplace : w'.files.locate (.ofString "contracts/A_B.qbi") =
        .ok ["contracts", "A_B.qbi"] := by
      rw [hfiles]
      decide +kernel
    refine ⟨?_, ?_, ?_⟩
    · rw [hfiles]
      decide +kernel
    · rw [hfiles]
      decide +kernel
    · intro name hslash hheader heq
      rw [hplace] at heq
      have hname := eq_of_locate_header hbase hheader hslash heq.symm
      obtain rfl : "A_B.qbi" = name := by simpa using hname
      revert hheader
      decide +kernel
  obtain ⟨result, w'', hagain, hkept, -, hresult⟩ := generate_again houtcome
    (by rw [hfiles]; decide +kernel) hspares ⟨"later", "later", "0.01", "2.0"⟩
  obtain rfl : result = .ok _ := by
    rw [hresult]
    intro base hbase' name hname
    obtain rfl := Except.ok.inj (hbase.symm.trans hbase')
    have hall : ∀ place ∈ (innerFilled "A_B.h").places, place.dropLast = ["contracts"] →
        ((innerFilled "A_B.h").locate
          (innerRegistry.contractsDir.append (place.getLast?.getD ""))).isOk := by
      decide +kernel
    rw [FileTree.mem_entries, hfiles] at hname
    rintro ⟨q, hlong⟩
    have hok := hall _ hname rfl
    rw [hfiles] at hlong
    simp [hlong, Except.isOk, Except.toBool] at hok
  exact ⟨_, w', w'', houtcome, hagain, hkept⟩

/-! ### Entries that cannot be looked at -/

/-- A path that enters a directory and leaves it a number of times before it goes on. -/
def winding (n : Nat) (names : List String) : Path :=
  ⟨"", (List.replicate n ["c", ".."]).flatten ++ names⟩

theorem winding_append (n : Nat) {name : String} (hname : Path.ofString name = ⟨"", [name]⟩) :
  (winding n ["c"]).append name = winding n ["c", name]
  := by
  simp [winding, Path.append, Path.join, hname]

section Winding

variable {tree : FileTree} {name : String} {names : List String}

theorem toString_winding_succ (n : Nat) :
  (winding (n + 1) (name :: names)).toString = "c/../" ++ (winding n (name :: names)).toString
  := by
  obtain ⟨first, rest, hparts⟩ : ∃ first rest,
      (List.replicate n ["c", ".."]).flatten ++ name :: names = first :: rest :=
    List.exists_cons_of_ne_nil (by simp)
  rw [winding, winding, List.replicate_succ, List.flatten_cons, List.append_assoc, hparts]
  simp only [Path.toString, List.cons_append, List.nil_append, List.isEmpty_cons, Bool.and_false,
    if_neg Bool.false_ne_true, String.empty_append, String.intercalate_cons_cons,
    ← String.append_assoc]
  rfl

/-- Every winding makes a path longer by five bytes. -/
theorem toString_winding (n : Nat) :
  (winding n (name :: names)).toString.utf8ByteSize =
      5 * n + (winding 0 (name :: names)).toString.utf8ByteSize ∧
    (winding n (name :: names)).toString.toList.contains '\x00' =
      (winding 0 (name :: names)).toString.toList.contains '\x00'
  := by
  induction n with
  | zero => simp
  | succ n ih =>
      obtain ⟨hsize, hnull⟩ := ih
      have hfive : "c/../".utf8ByteSize = 5 := by decide
      rw [toString_winding_succ, String.utf8ByteSize_append, hsize, String.toList_append, ← hnull]
      exact ⟨by omega, by simp⟩

theorem walk_winding (hdirectory : tree.get? ["c"] = some .directory) (n : Nat) :
  tree.walk [] (winding n names).parts = tree.walk [] names
  := by
  have hroot : tree.get? [] = some .directory := rfl
  have hsizes : ¬ FileTree.maxNameSize < "c".utf8ByteSize ∧
      ¬ FileTree.maxNameSize < "..".utf8ByteSize := by
    decide
  induction n with
  | zero => rfl
  | succ n ih =>
      rw [← ih, winding, winding, List.replicate_succ, List.flatten_cons, List.append_assoc]
      simp [FileTree.walk, hroot, hdirectory, hsizes]

/-- Windings do not count until a path is too long. -/
theorem locate_winding (n : Nat) (hcwd : tree.cwd = [])
    (hdirectory : tree.get? ["c"] = some .directory)
    (hsize : 5 * n + (winding 0 (name :: names)).toString.utf8ByteSize ≤ FileTree.maxPathSize)
    {place : Location} (h : tree.locate (winding 0 (name :: names)) = .ok place) :
  tree.locate (winding n (name :: names)) = .ok place
  := by
  obtain ⟨hnull, -, hwalk⟩ := FileTree.locate_eq_ok_iff.mp h
  rw [hcwd, ite_self, walk_winding hdirectory] at hwalk
  rw [FileTree.locate_eq_ok_iff, (toString_winding n).1, (toString_winding n).2, hcwd, ite_self,
    walk_winding hdirectory]
  exact ⟨hnull, by omega, hwalk⟩

theorem tooLong_winding (n : Nat)
    (hnull : (winding 0 (name :: names)).toString.toList.contains '\x00' = false)
    (hsize : FileTree.maxPathSize < 5 * n + (winding 0 (name :: names)).toString.utf8ByteSize) :
  tree.TooLong (winding n (name :: names))
  := by
  use winding n (name :: names)
  rw [FileTree.locate, (toString_winding n).1, (toString_winding n).2, hnull,
    if_neg Bool.false_ne_true, if_pos hsize]

end Winding

/-- A registry with its headers at the end of a winding path. -/
def windingRegistry (n : Nat) : Registry :=
  { sampleRegistry with contractsDir := winding n ["c"], outputDir := .ofString "c/documents" }

/-- A header at the end of the path, and further files. -/
def windingFiles (others : List (Location × Node)) : FileTree :=
  { nodes :=
      [(["c"], .directory), (["c", "A.h"], .file []), (["c", "qpi.h"], .file []),
        (["def.h"], .file [])] ++ others
    cwd := [] }

/-- A world with this header. -/
def windingWorld : World :=
  { files := windingFiles []
    environment := []
    clock := ⟨"now", "now", "0.00", "1.0"⟩
    events := []
    progress := .start }

/-- The document of the header. -/
def windingText : Text :=
  ((windingRegistry 0).textIn [] (windingFiles []) [] [] "A.h").toOption.getD []

/-- The files with the document of the header. -/
def windingFilled : FileTree :=
  windingFiles [(["c", "documents"], .directory),
    (["c", "documents", "A.qbi"], .file (Utf8.encode windingText))]

theorem locate_windingFiles (others : List (Location × Node)) :
  (windingFiles others).locate (winding 817 ["c"]) = .ok ["c"] ∧
    ∀ name ∈ ["A.h", "qpi.h"],
      (windingFiles others).locate ((winding 817 ["c"]).append name) = .ok ["c", name] ∧
      (windingFiles others).get? ["c", name] = some (.file [])
  := by
  refine ⟨locate_winding 817 rfl rfl (by decide +kernel) rfl, ?_⟩
  intro name hname
  have hcases : name = "A.h" ∨ name = "qpi.h" := by simpa using hname
  rcases hcases with rfl | rfl
  · rw [winding_append 817 (by decide +kernel)]
    exact ⟨locate_winding 817 rfl rfl (by decide +kernel) rfl, rfl⟩
  · rw [winding_append 817 (by decide +kernel)]
    exact ⟨locate_winding 817 rfl rfl (by decide +kernel) rfl, rfl⟩

theorem readText_windingFiles (others : List (Location × Node)) {name : String}
    (hname : name ∈ ["A.h", "qpi.h"]) :
  (windingFiles others).readText ((winding 817 ["c"]).append name) = .ok []
  := by
  obtain ⟨hplace, hnode⟩ := (locate_windingFiles others).2 name hname
  rw [FileTree.readText, FileTree.read_eq_ok hplace hnode]
  rfl

theorem inputsIn_winding :
  (windingRegistry 817).inputsIn .default (windingFiles []) = .ok ([], [], ["A.h"])
  := by
  obtain ⟨hbase, hplaces⟩ := locate_windingFiles []
  have hentries : (windingFiles []).entries ["c"] = ["A.h", "qpi.h"] :=
    FileTree.entries_of_pairwise rfl (by decide)
  have hlistable : (windingFiles []).Listable (winding 817 ["c"]) ["c"] := by
    refine ⟨hbase, rfl, ?_⟩
    rw [hentries]
    rintro name hname ⟨q, hlong⟩
    rw [(hplaces name hname).1] at hlong
    cases hlong
  have hfile : (windingFiles []).leadsToFile ((winding 817 ["c"]).append "A.h") :=
    FileTree.leadsToFile_iff.mpr ⟨_, _, hplaces "A.h" (by simp)⟩
  have hheader : FileName.isContractHeader "A.h" CompilerSettings.default.preludeHeader := by
    decide +kernel
  have hprelude : FileName.isContractHeader "qpi.h" CompilerSettings.default.preludeHeader =
      false := by
    decide +kernel
  rw [inputsIn_eq_ok_iff]
  refine ⟨by decide +kernel, readText_windingFiles [] (by decide), ?_⟩
  rw [headers_eq_ok_iff]
  refine ⟨["c"], hlistable, ?_⟩
  rw [hentries, List.filter_cons_of_pos, List.filter_cons_of_neg, List.filter_nil]
  · simp [hprelude]
  · rw [hheader, Bool.true_and]
    exact hfile

theorem stepIn_winding :
  (windingRegistry 817).stepIn .default [] [] [] (windingFiles [(["c", "documents"], .directory)])
    "A.h" = .ok (windingText, windingFilled)
  := by
  have hshort : (windingRegistry 0).stepIn .default [] [] []
      (windingFiles [(["c", "documents"], .directory)]) "A.h" =
      .ok (windingText, windingFilled) := by
    decide +kernel
  have htext : (windingRegistry 817).textIn [] (windingFiles [(["c", "documents"], .directory)])
      [] [] "A.h" = (windingRegistry 0).textIn []
      (windingFiles [(["c", "documents"], .directory)]) [] [] "A.h" := by
    have hread : (windingFiles [(["c", "documents"], .directory)]).readText
        ((windingRegistry 817).contractsDir.append "A.h") =
        (windingFiles [(["c", "documents"], .directory)]).readText
        ((windingRegistry 0).contractsDir.append "A.h") :=
      readText_windingFiles _ (by decide)
    rw [textIn, textIn, documentIn, documentIn, hread]
    rfl
  rw [← hshort, stepIn, stepIn, htext]
  rfl

/-- A registry whose documents go into the directory of its headers is made, but not made again,
since the directory of the documents cannot be looked at by way of the winding path. -/
theorem generate_again_winding :
  ∃ paths w' e w'', ((windingRegistry 817).generate .default).outcome windingWorld =
      (.ok paths, w') ∧
    w'.files.WellNamed ∧ (∀ p ∈ paths, (windingRegistry 817).Spares .default w'.files p) ∧
    ((windingRegistry 817).generate .default).outcome w' = (.error e, w'')
  := by
  have hdirectory : windingWorld.files.makeDirectories (windingRegistry 817).outputDir =
      (.ok (), windingFiles [(["c", "documents"], .directory)]) := by
    decide +kernel
  have hcourse : Course (windingRegistry 817) .default windingWorld.environment
      windingWorld.files (.ok [.ofString "c/documents/A.qbi"]) windingFilled :=
    .finished inputsIn_winding hdirectory rfl (.cons stepIn_winding .nil)
  obtain ⟨w', houtcome, hfiles, -⟩ := hcourse.exists_outcome
  obtain ⟨hbase, hplaces⟩ := locate_windingFiles [(["c", "documents"], .directory),
    (["c", "documents", "A.qbi"], .file (Utf8.encode windingText))]
  have hbase : windingFilled.locate (windingRegistry 817).contractsDir = .ok ["c"] := hbase
  have hplace : windingFilled.locate (.ofString "c/documents/A.qbi") =
      .ok ["c", "documents", "A.qbi"] := by
    decide +kernel
  have hspares : (windingRegistry 817).Spares .default windingFilled
      (.ofString "c/documents/A.qbi") := by
    refine ⟨by decide +kernel, ?_, ?_⟩
    · rw [hplace]
      intro heq
      have hprelude := heq.trans (hplaces "qpi.h" (by decide)).1
      simp at hprelude
    · intro name hslash hheader heq
      rw [hplace] at heq
      have hheader := eq_of_locate_header hbase hheader hslash heq.symm
      simp at hheader
  rcases hinputs : (windingRegistry 817).inputsIn .default windingFilled with
    e | ⟨indices, prelude, names⟩
  · have hagain : Course (windingRegistry 817) .default w'.environment w'.files (.error e)
        w'.files := by
      rw [hfiles]
      exact .unread hinputs
    obtain ⟨w'', houtcome', -⟩ := hagain.exists_outcome
    refine ⟨_, w', e, w'', houtcome, ?_, ?_, houtcome'⟩
    · rw [hfiles]
      decide +kernel
    · rw [hfiles]
      simpa using hspares
  · obtain ⟨base, hlistable, -⟩ := headers_eq_ok_iff.mp (inputsIn_eq_ok_iff.mp hinputs).2.2
    obtain rfl := Except.ok.inj (hbase.symm.trans hlistable.locate)
    have hentry : "documents" ∈ windingFilled.entries ["c"] := by
      rw [FileTree.mem_entries]
      decide +kernel
    have hlong : windingFilled.TooLong ((winding 817 ["c"]).append "documents") := by
      rw [winding_append 817 (by decide +kernel)]
      exact tooLong_winding 817 (by decide +kernel) (by decide +kernel)
    exact (hlistable.entries "documents" hentry hlong).elim

end Registry

end ContractInterface
