import ContractInterface.Proofs.FileName.Sanitize

/-!
# Names of headers and documents

A name without slashes is one part of a path.  The name that stands for a contract in the name of
its document is not empty and has safe characters only, so it can be read off the path of the
document, whatever the ending is: two documents have the same path exactly if the same name
stands for both contracts.
-/

namespace ContractInterface

/-! ### Paths -/

theorem Text.exists_splitWhere (p : Char → Bool) (t : Text) :
  ∃ piece pieces, splitWhere p t = piece :: pieces
  := by
  rw [splitWhere_eq_splitOnP]
  apply List.exists_cons_of_ne_nil (List.splitOnP_ne_nil p t)

/-- A text without separators in front of another one belongs to the first piece. -/
theorem Text.splitWhere_append_of_forall {p : Char → Bool} {s t piece : Text}
    {pieces : List Text} (h : ∀ c ∈ s, p c = false) (hpieces : splitWhere p t = piece :: pieces) :
  splitWhere p (s ++ t) = (s ++ piece) :: pieces
  := by
  induction s with
  | nil => exact hpieces
  | cons c s ih =>
      have hsplit := ih fun d hd => h d (List.mem_cons_of_mem c hd)
      rw [List.cons_append, splitWhere, hsplit, h c List.mem_cons_self]
      rfl

namespace Path

/-- A name that can stand in a directory: it is not empty and has no slash. -/
def IsName (name : String) : Prop :=
  name ≠ "" ∧ '/' ∉ name.toList

theorem IsName.slashless {name : String} (h : IsName name) :
  ∀ c ∈ name.toList, (c == '/') = false
  := by
  intro c hc
  rw [beq_eq_false_iff_ne]
  rintro rfl
  apply h.2 hc

theorem IsName.exists_cons {name : String} (h : IsName name) :
  ∃ c t, name.toList = c :: t ∧ c ≠ '/'
  := by
  cases hname : name.toList with
  | nil => exact (h.1 (String.toList_eq_nil_iff.mp hname)).elim
  | cons c t =>
      refine ⟨c, t, rfl, ?_⟩
      rintro rfl
      apply h.2
      rw [hname]
      apply List.mem_cons_self

theorem IsName.append {name rest : String} (h : IsName name) (hrest : '/' ∉ rest.toList) :
  IsName (name ++ rest)
  := by
  obtain ⟨c, t, hname, -⟩ := h.exists_cons
  constructor
  · rw [ne_eq, ← String.toList_eq_nil_iff, String.toList_append, hname]
    simp
  · rw [String.toList_append, List.mem_append, not_or]
    exact ⟨h.2, hrest⟩

/-- A text that starts with a name is no path from a root. -/
theorem root_ofString {name : String} (h : IsName name) (rest : String) :
  (ofString (name ++ rest)).root = ""
  := by
  obtain ⟨c, t, hname, hc⟩ := h.exists_cons
  simp [ofString, hname, hc, rootOf]

theorem append_eq (p : Path) {name : String} (h : IsName name) (rest : String) :
  p.append (name ++ rest) = { p with parts := p.parts ++ (ofString (name ++ rest)).parts }
  := by
  rw [append, join, root_ofString h]
  simp

/-- The parts of a text that starts with a name: the name goes with what stands before the first
slash of the rest.  Nothing is left of the two if they are a single point. -/
theorem parts_ofString (rest : String) :
  ∃ piece pieces, ∀ name, IsName name →
    (ofString (name ++ rest)).parts =
      (if name ++ piece = "." then [] else [name ++ piece]) ++ pieces
  := by
  obtain ⟨piece, pieces, hpieces⟩ := Text.exists_splitWhere (· == '/') rest.toList
  use String.ofList piece, (pieces.map String.ofList).filter fun name => name != "" && name != "."
  intro name h
  have hfirst : String.ofList (name.toList ++ piece) = name ++ String.ofList piece := by
    rw [String.ofList_append, String.ofList_toList]
  have hne : name ++ String.ofList piece ≠ "" := by
    intro hempty
    exact h.1 (String.append_eq_empty_iff.mp hempty).1
  dsimp only [ofString]
  rw [String.toList_append, Text.splitWhere_append_of_forall h.slashless hpieces, List.map_cons,
    hfirst, List.filter_cons]
  split_ifs with hkept hpoint hpoint
  · simp [hpoint] at hkept
  · rfl
  · rfl
  · simp [hne, hpoint] at hkept

/-- A name is the only part of the path that it denotes, unless it is a single point. -/
theorem ofString_eq {name : String} (h : IsName name) :
  ofString name = ⟨"", if name = "." then [] else [name]⟩
  := by
  have hroot := root_ofString h ""
  rw [String.append_empty] at hroot
  have hparts : (ofString name).parts = if name = "." then [] else [name] := by
    dsimp only [ofString]
    rw [Text.splitWhere_of_forall h.slashless, List.map_singleton, String.ofList_toList]
    by_cases hpoint : name = "."
    · simp [hpoint]
    · simp [hpoint, h.1]
  rw [← hroot, ← hparts]

/-- A name at the front of a text can be read off the path that goes on by it. -/
theorem eq_of_append_eq {p : Path} {name name' rest : String} (h : IsName name)
    (h' : IsName name') (hpath : p.append (name ++ rest) = p.append (name' ++ rest)) :
  name = name'
  := by
  obtain ⟨piece, pieces, hparts⟩ := parts_ofString rest
  rw [append_eq p h, append_eq p h', hparts name h, hparts name' h'] at hpath
  simp only [Path.mk.injEq, true_and, List.append_cancel_left_eq,
    List.append_cancel_right_eq] at hpath
  split_ifs at hpath with hpoint hpoint' hpoint'
  · rw [← hpoint'] at hpoint
    apply String.append_left_inj _ |>.mp hpoint
  · apply String.append_left_inj _ |>.mp (List.singleton_inj.mp hpath)

end Path

/-! ### Names of headers -/

namespace FileName

/-- The name of a contract header starts with a capital letter. -/
theorem exists_of_isContractHeader {name prelude : String}
    (h : isContractHeader name prelude) :
  ∃ c t, name.toList = c :: t ∧ c.isUpper
  := by
  simp only [isContractHeader, Bool.and_eq_true, Option.any_eq_true] at h
  obtain ⟨⟨⟨-, c, hhead, hc⟩, -⟩, -⟩ := h
  cases hdrop : Text.dropSuffix? ['\n'] name.toList with
  | none =>
      rw [hdrop] at hhead
      obtain ⟨t, ht⟩ := List.head?_eq_some_iff.mp hhead
      exact ⟨c, t, ht, hc⟩
  | some core =>
      rw [hdrop] at hhead
      obtain ⟨t, ht⟩ := List.head?_eq_some_iff.mp hhead
      rw [Option.getD_some] at ht
      rw [Text.eq_append_of_dropSuffix? hdrop, ht]
      exact ⟨c, _, rfl, hc⟩

/-- A contract header in a directory is the only part of its path. -/
theorem ofString_of_isContractHeader {name prelude : String}
    (h : isContractHeader name prelude) (hslash : '/' ∉ name.toList) :
  Path.ofString name = ⟨"", [name]⟩
  := by
  obtain ⟨c, t, hname, hc⟩ := exists_of_isContractHeader h
  have hempty : name ≠ "" := by
    rintro rfl
    contradiction
  have hpoint : name ≠ "." := by
    rintro rfl
    obtain ⟨rfl, -⟩ := List.cons.inj hname
    contradiction
  rw [Path.ofString_eq ⟨hempty, hslash⟩, if_neg hpoint]

/-- A contract has the first letter of its header. -/
theorem head?_contractName {header prelude : String} (h : isContractHeader header prelude)
    (hslash : '/' ∉ header.toList) :
  ∃ c, c.isUpper ∧ header.toList.head? = some c ∧
    (contractName (Path.ofString header)).toList.head? = some c
  := by
  obtain ⟨c, t, hheader, hc⟩ := exists_of_isContractHeader h
  refine ⟨c, hc, by rw [hheader]; rfl, ?_⟩
  have hname : (Path.ofString header).name = header := by
    rw [ofString_of_isContractHeader h hslash]
    rfl
  rw [contractName, hname, String.toList_ofList]
  cases hdrop : Text.dropSuffix? ".h".toList header.toList with
  | none =>
      rw [Option.getD_none, hheader]
      rfl
  | some front =>
      have heq := Text.eq_append_of_dropSuffix? hdrop
      rw [hheader] at heq
      rw [Option.getD_some]
      cases front with
      | nil =>
          obtain ⟨rfl, -⟩ := List.cons.inj heq
          contradiction
      | cons d front =>
          rw [(List.cons.inj heq).1]
          rfl

/-! ### Names of documents -/

theorem isName_safeName (name : String) : Path.IsName (safeName name)
  := by
  have htidy := tidy_safeName name
  constructor
  · intro hempty
    apply htidy.ne_nil
    rw [hempty]
    rfl
  · intro hslash
    have hsafe := htidy.safe '/' hslash
    contradiction

/-- A document stands in the directory itself under its name, which has the first letter of the
header. -/
theorem append_document {header prelude : String} (h : isContractHeader header prelude)
    (hslash : '/' ∉ header.toList) {suffix : String} (hsuffix : '/' ∉ suffix.toList) (dir : Path) :
  let file := document (contractName (Path.ofString header)) suffix
  '/' ∉ file.toList ∧
  (∃ c, c.isUpper ∧ header.toList.head? = some c ∧ file.toList.head? = some c) ∧
  dir.append file = { dir with parts := dir.parts ++ [file] }
  := by
  obtain ⟨c, hc, hheader, hcontract⟩ := head?_contractName h hslash
  generalize contractName (Path.ofString header) = contract at hcontract ⊢
  intro file
  have hletter : isSafe c ∧ c ≠ '_' := by
    have halpha : c.isAlpha := Bool.or_eq_true_iff.mpr (.inl hc)
    refine ⟨by simp [isSafe, Char.isAlphanum, halpha], ?_⟩
    rintro rfl
    contradiction
  have hname : Path.IsName file := (isName_safeName contract).append hsuffix
  have hhead : file.toList.head? = some c := by
    obtain ⟨t, ht⟩ := List.head?_eq_some_iff.mp (head?_safeName hcontract hletter.1 hletter.2)
    change (safeName contract ++ suffix).toList.head? = some c
    rw [String.toList_append, ht]
    rfl
  have hpoint : file ≠ "." := by
    intro hfile
    rw [hfile] at hhead
    obtain rfl := Option.some.inj hhead
    contradiction
  refine ⟨hname.2, ⟨c, hc, hheader, hhead⟩, ?_⟩
  change dir.append (safeName contract ++ suffix) = _
  rw [Path.append_eq dir (isName_safeName contract)]
  change { dir with parts := dir.parts ++ (Path.ofString file).parts } = _
  rw [Path.ofString_eq hname, if_neg hpoint]

/-- The names of documents are safe and stable.  Sanitizing any name gives a name of ASCII letters,
digits, underscores, hyphens and points, in which no underscore stands at an end or follows another
one, and which is not changed by sanitizing it again.  So the document of a header stands in the
directory of the documents itself, under a name with the first letter of the header. -/
theorem document_stable :
  (∀ name, ∃ safe, sanitize "_" name = .ok safe ∧ safe ≠ "" ∧
    (∀ c ∈ safe.toList, c.isAlphanum ∨ c ∈ ['_', '-', '.']) ∧
    ¬['_', '_'] <:+: safe.toList ∧
    safe.toList.head? ≠ some '_' ∧ safe.toList.getLast? ≠ some '_' ∧
    sanitize "_" safe = .ok safe) ∧
  ∀ (header prelude suffix : String) (dir : Path), isContractHeader header prelude →
    '/' ∉ header.toList → '/' ∉ suffix.toList →
    let file := document (contractName (Path.ofString header)) suffix
    '/' ∉ file.toList ∧
    (∃ c, c.isUpper ∧ header.toList.head? = some c ∧ file.toList.head? = some c) ∧
    (dir.append file).parent = dir ∧ (dir.append file).name = file
  := by
  constructor
  · intro name
    have htidy := tidy_safeName name
    refine ⟨safeName name, safeName_eq name, (isName_safeName name).1, ?_, htidy.single,
      htidy.head, htidy.last, htidy.sanitize_eq⟩
    intro c hc
    have hsafe := htidy.safe c hc
    simpa [isSafe, or_assoc] using hsafe
  · intro header prelude suffix dir hheader hslash hsuffix file
    obtain ⟨hfile, hletter, happend⟩ := append_document hheader hslash hsuffix dir
    refine ⟨hfile, hletter, ?_, ?_⟩
    · rw [happend]
      simp [Path.parent]
    · rw [happend]
      simp [Path.name, file]

/-- The name of a header with a space in it. -/
theorem document_stable_space :
  let file := document (contractName (Path.ofString "Q X.h")) ".qbi"
  isContractHeader "Q X.h" "qpi.h" ∧ file = "Q_X.qbi" ∧
  '/' ∉ file.toList ∧
  (∃ c, c.isUpper ∧ "Q X.h".toList.head? = some c ∧ file.toList.head? = some c) ∧
  (Path.append ⟨"/", ["out"]⟩ file).parent = ⟨"/", ["out"]⟩ ∧
  (Path.append ⟨"/", ["out"]⟩ file).name = file
  := by
  have hheader : isContractHeader "Q X.h" "qpi.h" := by decide +kernel
  refine ⟨hheader, by decide +kernel, ?_⟩
  apply document_stable.2 "Q X.h" "qpi.h" ".qbi" ⟨"/", ["out"]⟩ hheader
  · decide +kernel
  · decide +kernel

end FileName

end ContractInterface
