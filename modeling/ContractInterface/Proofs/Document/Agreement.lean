import ContractInterface.Header.Compile
import ContractInterface.Proofs.Document.Consistent
import ContractInterface.Proofs.Header.Registration
import ContractInterface.Proofs.Layout.Placement
import ContractInterface.Proofs.Resolution.Preservation
import Mathlib.Data.List.TakeWhile

/-!
# Compiled documents are valid

That all field names are identifiers is a property of types that no resolution breaks.  Between
the entries of a header no struct is being resolved, so a side is a struct or a side without
data, and its description is consistent with the size that is recorded for it.  Hence every
compiled document is valid.
-/

namespace ContractInterface.Header

open Resolution

/-! ### Names of resolved fields -/

theorem IsIdentifier.ne_empty {name : String} (h : IsIdentifier name) :
  name ≠ ""
  := by
  rintro rfl
  contradiction

theorem IsIdentifier.isProperName {name : JsonString} (h : IsIdentifier name) :
  TypeDesc.IsProperName name
  := by
  cases name with
  | text name =>
      simpa [TypeDesc.IsProperName, JsonString.isEmpty, JsonString.points] using h.ne_empty
  | broken points => exact h.elim

/-- All field names in a type are identifiers. -/
def TypeProperty.identifiers : TypeProperty where
  holds _ type := type.Named IsIdentifier
  mono _ h := h
  placeholder _ := trivial
  scalar _ _ := trivial
  bytes _ _ _ := trivial
  m256i _ := trivial
  array _ _ h := h
  struct h := (TypeDesc.fieldsNamed_iff _).mpr h

/-! ### Sides -/

theorem describeSide_size (type : TypeDesc) :
  (describeSide type).size = type.size
  := by
  unfold describeSide
  split
  · rfl
  · rename_i expectedSize
    simp only [TypeDesc.size, TypeDesc.layout, Option.getD_some]
    omega
  · rfl

/-- The description of a struct, or of a side without data, is consistent with its size. -/
theorem consistent_describeSide {type : TypeDesc} (hnamed : type.Named IsIdentifier)
    (hshape : (∃ fields, type = .struct fields) ∨ type = .nodata none) :
  ConsistentSide (describeSide type) type.size
  where
  named := by
    unfold describeSide
    split
    · trivial
    · trivial
    · apply TypeDesc.Named.mono (fun _ => IsIdentifier.isProperName) _ hnamed
  size_eq := by
    rw [describeSide_size]
  occupied := by
    rw [describeSide_size]
    rcases hshape with ⟨fields, rfl⟩ | rfl
    · apply TypeDesc.one_le_struct_size
    · decide
  described := by
    unfold describeSide
    split
    · simp
    · simp
    · assumption

theorem keeps_resolveSide {s : ResolverState} (hs : TypeProperty.identifiers.Known s)
    (hidle : s.memo.inProgress = []) (scope : Scope) (name : String) :
  Keeps .identifiers s (resolveSide scope name) fun _ side => ConsistentSide side.1 side.2
  := by
  apply Keeps.bind (keeps_resolveStructWith (resolves_resolveWithin _ scope _) hs name)
  intro found s' _ hs' hfound
  apply Keeps.bind (Keeps.ofNumeral hs' _)
  intro _ s'' _ hs'' _
  apply Keeps.pure hs''
  cases found with
  | none =>
      apply consistent_describeSide _ (.inr rfl)
      trivial
  | some type =>
      obtain ⟨hnamed, hstruct⟩ := hfound type rfl
      apply consistent_describeSide hnamed
      left
      apply hstruct
      simp [hidle]

/-! ### Entries -/

theorem keeps_compileEntry {s : ResolverState} (hs : TypeProperty.identifiers.Known s)
    (hidle : s.memo.inProgress = []) (scope : Scope) {r : Registration}
    (hr : IsIdentifier r.name) :
  Keeps .identifiers s (compileEntry scope r) fun _ e => e.Consistent
  := by
  apply Keeps.bind (keeps_resolveSide hs hidle scope _)
  rintro ⟨input, inputSize⟩ s' hadvances hs' hinput
  apply Keeps.bind (keeps_resolveSide hs' (hadvances.inProgress.trans hidle) scope _)
  rintro ⟨output, outputSize⟩ s'' _ hs'' houtput
  apply Keeps.bind (Keeps.ofNumeral hs'' _)
  intro _ s₃ _ hs₃ _
  apply Keeps.bind (Keeps.ofNumeral hs₃ _)
  intro _ s₄ _ hs₄ _
  apply Keeps.pure hs₄
  exact ⟨hr.ne_empty, Int.natCast_nonneg _, hinput, houtput⟩

/-- Entries that are compiled one after another are consistent. -/
theorem keeps_compileEntries {s : ResolverState} (hs : TypeProperty.identifiers.Known s)
    (hidle : s.memo.inProgress = []) (scope : Scope) {rs : List Registration}
    (hrs : ∀ r ∈ rs, IsIdentifier r.name) :
  Keeps .identifiers s (compileEntries scope rs) fun _ es => ∀ e ∈ es, e.Consistent
  := by
  induction rs generalizing s with
  | nil =>
      apply Keeps.pure hs
      intro e he
      contradiction
  | cons r rs ih =>
      apply Keeps.bind (keeps_compileEntry hs hidle scope (hrs r List.mem_cons_self))
      intro e s' hadvances hs' he
      apply Keeps.bind (ih hs' (hadvances.inProgress.trans hidle)
        fun r' hr' => hrs r' (List.mem_cons_of_mem r hr'))
      intro es s'' _ hs'' hes
      apply Keeps.pure hs''
      intro e' he'
      rcases List.mem_cons.mp he' with rfl | he'
      · apply he
      · apply hes e' he'

/-! ### Documents -/

/-- The parts of a compiled document. -/
theorem exists_of_compile_eq_ok {options : CompileOptions} {seed : Table Int} {header : Text}
    {d : Document TypeDesc} (h : compile options seed header = .ok d) :
  d.version = documentVersion ∧
    d.contract = ⟨options.contractName, options.contractIndex, options.contractPublicKeyHex,
      none⟩ ∧
    ∃ o es, outline seed header = .ok o ∧
      ((compileEntries o.scope o.registrations).outcome .start).1 = .ok es ∧
      d.entries = es.mergeSort Entry.le
  := by
  obtain ⟨o, ho, h⟩ := bind_eq_ok_iff.mp h
  obtain ⟨⟨d', memo⟩, hd', h⟩ := bind_eq_ok_iff.mp h
  obtain rfl := Except.ok.inj h
  obtain ⟨es, hes, hd'⟩ := bind_eq_ok_iff.mp hd'
  obtain ⟨rfl, -⟩ := Prod.mk.inj (Except.ok.inj hd')
  have ho : outline seed header = .ok o := by
    cases houtline : outline seed header with
    | error e =>
        rw [houtline] at ho
        contradiction
    | ok o' =>
        rw [houtline] at ho
        rw [Except.ok.inj ho]
  exact ⟨rfl, rfl, o, es, ho, hes, rfl⟩

/-- Every entry of a compiled document is consistent. -/
theorem consistent_of_compile_eq_ok {options : CompileOptions} {seed : Table Int}
    {header : Text} {d : Document TypeDesc} (h : compile options seed header = .ok d) :
  ∀ e ∈ d.entries, e.Consistent
  := by
  obtain ⟨-, -, o, es, ho, hes, hentries⟩ := exists_of_compile_eq_ok h
  obtain ⟨constants, -, ho⟩ := bind_eq_ok_iff.mp ho
  obtain ⟨registrations, hregistrations, ho⟩ := bind_eq_ok_iff.mp ho
  obtain rfl := Except.ok.inj ho
  have hkeeps := keeps_compileEntries TypeProperty.Known.start rfl
    { source := stripComments header, constants, aliases := aliasTable (stripComments header) }
    (Registration.isIdent_of_mem_all hregistrations)
  intro e he
  rw [hentries] at he
  apply hkeeps.result es hes e (List.mem_mergeSort.mp he)

theorem isKeyText_of_hex {key : String} (hlength : key.toList.length = 64)
    (hhex : key.toList.all isHex) :
  Schema.isKeyText (.text key)
  := by
  have htake : key.toList.takeWhile isHex = key.toList := by
    apply List.takeWhile_eq_self_iff.mpr
    apply List.all_eq_true.mp hhex
  have hdrop : key.toList.dropWhile isHex = [] := by
    apply List.dropWhile_eq_nil_iff.mpr
    apply List.all_eq_true.mp hhex
  simp only [Schema.isKeyText, htake, hdrop, hlength]
  rfl

/-- The compiler and the validator agree: whatever the header, a compiled document is valid
without errors, if the contract has a name, its index, if given, is not negative, and its key,
if given, consists of 64 hexadecimal digits.  In particular every recorded size is that of the
description of its side and at least a byte, and no side is a struct without fields. -/
theorem validate_compile {options : CompileOptions} {seed : Table Int} {header : Text}
    {d : Document TypeDesc} (hname : options.contractName ≠ "")
    (hindex : ∀ i ∈ options.contractIndex, 0 ≤ i)
    (hkey : ∀ key ∈ options.contractPublicKeyHex,
      key.toList.length = 64 ∧ key.toList.all isHex)
    (h : compile options seed header = .ok d) :
  Document.validate d.toJson = .ok [] ∧
    ∀ e ∈ d.entries,
      (e.inputSize = e.input.size ∧ 1 ≤ e.inputSize ∧ e.input ≠ .struct []) ∧
      (e.outputSize = e.output.size ∧ 1 ≤ e.outputSize ∧ e.output ≠ .struct [])
  := by
  obtain ⟨hversion, hcontract, -⟩ := exists_of_compile_eq_ok h
  have hentries := consistent_of_compile_eq_ok h
  constructor
  · apply Document.validate_eq_nil hversion _ hentries
    rw [hcontract]
    apply Contract.shape hname hindex
    intro key hmem
    obtain ⟨hlength, hhex⟩ := hkey key hmem
    apply isKeyText_of_hex hlength hhex
  · intro e he
    obtain ⟨-, -, hinput, houtput⟩ := hentries e he
    have hinputSize := hinput.occupied
    have houtputSize := houtput.occupied
    rw [hinput.size_eq, houtput.size_eq]
    exact ⟨⟨rfl, by omega, hinput.described⟩, ⟨rfl, by omega, houtput.described⟩⟩

/-- Options with an index and a key. -/
def sampleOptions : CompileOptions :=
  { contractName := "Sample", contractIndex := some 7
    contractPublicKeyHex := some (String.ofList (List.replicate 64 'a'))
    sourcePath := none, sourceRepo := none, sourceRevision := none
    generatorVersion := none, generatedAt := none }

/-- A header with a struct that refers to itself and to a type that nobody declares, and with
one that is empty. -/
def sampleHeader : Text :=
  "struct F_input \x7b uint8 a; Lost b[2]; F_input f; \x7d;\n".toList ++
    "struct F_output \x7b \x7d;\nREGISTER_USER_FUNCTION(F, 1);".toList

theorem validate_compile_sample :
  sampleOptions.contractName ≠ "" ∧ (∀ i ∈ sampleOptions.contractIndex, 0 ≤ i) ∧
    (∀ key ∈ sampleOptions.contractPublicKeyHex,
      key.toList.length = 64 ∧ key.toList.all isHex) ∧
    ∃ d, compile sampleOptions [] sampleHeader = .ok d ∧
      Document.validate d.toJson = .ok [] ∧
      ∀ e ∈ d.entries,
        (e.inputSize = e.input.size ∧ 1 ≤ e.inputSize ∧ e.input ≠ .struct []) ∧
        (e.outputSize = e.output.size ∧ 1 ≤ e.outputSize ∧ e.output ≠ .struct [])
  := by
  have hname : sampleOptions.contractName ≠ "" := by decide
  have hindex : ∀ i ∈ sampleOptions.contractIndex, 0 ≤ i := by simp [sampleOptions]
  have hkey : ∀ key ∈ sampleOptions.contractPublicKeyHex,
      key.toList.length = 64 ∧ key.toList.all isHex := by
    rintro _ ⟨⟩
    rw [String.toList_ofList]
    decide
  have hok : (compile sampleOptions [] sampleHeader).isOk = true := by decide +kernel
  obtain ⟨d, hd⟩ := exists_of_isOk hok
  exact ⟨hname, hindex, hkey, d, hd, validate_compile hname hindex hkey hd⟩

end ContractInterface.Header
