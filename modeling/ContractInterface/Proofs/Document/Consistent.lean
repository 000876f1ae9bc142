import ContractInterface.Document.Basic
import ContractInterface.Document.Validate
import ContractInterface.Proofs.Document.Rule
import ContractInterface.Proofs.TypeDesc.Json
import Mathlib.Data.Option.Basic

/-!
# Consistent documents

An entry is consistent if its sides are descriptions of which no field lacks a name and which
are no structs without fields, and if the sizes that it records are those of its sides and at
least a byte.  A document all of whose entries are consistent, and whose contract has the right
shape, is valid.
-/

namespace ContractInterface

/-! ### Consistent entries -/

/-- A description of a side, with a size, as compiling a header gives it. -/
structure ConsistentSide (type : TypeDesc) (size : Int) : Prop where
  named : type.Named TypeDesc.IsProperName
  size_eq : size = type.size
  occupied : 1 ≤ type.size
  described : type ≠ .struct []

/-- An entry as compiling a header gives it. -/
structure Entry.Consistent (e : Entry TypeDesc) : Prop where
  name : e.name ≠ ""
  inputType : 0 ≤ e.inputType
  input : ConsistentSide e.input e.inputSize
  output : ConsistentSide e.output e.outputSize

/-! ### Consistent entries are valid -/

namespace Schema

variable (path : List PathStep)

theorem uint_nonneg {n : Int} (h : 0 ≤ n) :
  uint path (.int n) = []
  := by
  obtain ⟨m, rfl⟩ := Int.eq_ofNat_of_zero_le h
  apply TypeDesc.uint_nat

@[simp]
theorem ofKind_string (s : String) :
  ofKind .string path (.text s) = []
  := rfl

end Schema

namespace Entry

variable {e : Entry TypeDesc}

/-- A consistent entry has the shape of an entry. -/
theorem Consistent.shape (h : e.Consistent) (path : List PathStep) :
  Schema.entry path (e.toJson TypeDesc.toJson) = []
  := by
  have hkind : Schema.among ["function", "procedure"] (path ++ [.member "kind"])
      (.text e.kind.name) = [] := by
    cases e.kind <;> rfl
  have hinputSize : 0 ≤ e.inputSize := by
    rw [h.input.size_eq]
    apply Int.natCast_nonneg
  have houtputSize : 0 ≤ e.outputSize := by
    rw [h.output.size_eq]
    apply Int.natCast_nonneg
  apply Schema.allOf_eq_nil_iff.mpr
  simp [toJson, Schema.ofKind, Schema.Kind.accepts, Schema.expect, Schema.required,
    Schema.property, Json.member?, Assignments.contains, Assignments.get?, hkind,
    TypeDesc.nonEmptyString_text _ h.name, Schema.uint_nonneg _ h.inputType,
    Schema.uint_nonneg _ hinputSize, Schema.uint_nonneg _ houtputSize,
    TypeDesc.typeRef_toJson _ h.input.named, TypeDesc.typeRef_toJson _ h.output.named]

/-- The declared size of a consistent side is the size of what its description is read as. -/
theorem checkSize_eq_nil {entry : Json} {type : TypeDesc} {size : Int} {side sizeName : String}
    (h : ConsistentSide type size) (hside : entry.member? side = some type.toJson)
    (hsize : entry.member? sizeName = some (.int size)) (path : String) :
  Document.checkSize entry path side sizeName = .ok []
  := by
  have hdecode := TypeDesc.decode_toJson type h.named (path ++ "." ++ side)
  rw [h.size_eq] at hsize
  simp [Document.checkSize, Json.memberOrNull, hside, hsize, hdecode]

/-- The sizes of a consistent entry are those of its sides. -/
theorem Consistent.sizes (h : e.Consistent) (path : String) :
  Document.checkSizes path (e.toJson TypeDesc.toJson) = .ok []
  := by
  have hinput : Document.checkSize (e.toJson TypeDesc.toJson) path "input" "inputSize" = .ok [] :=
    checkSize_eq_nil h.input rfl rfl path
  have houtput :
      Document.checkSize (e.toJson TypeDesc.toJson) path "output" "outputSize" = .ok [] :=
    checkSize_eq_nil h.output rfl rfl path
  simp [Document.checkSizes, Document.sides, hinput, houtput, bind, Except.bind, pure,
    Except.pure]

end Entry

/-! ### Valid documents -/

namespace Json

theorem mem_of_member?_ofPresent {members : List (String × Option Json)} {name : String}
    {value : Json} (h : (ofPresent members).member? name = some value) :
  (name, some value) ∈ members
  := by
  induction members with
  | nil => contradiction
  | cons member members ih =>
      obtain ⟨key, content⟩ := member
      cases content with
      | none =>
          apply List.mem_cons_of_mem
          apply ih h
      | some content =>
          by_cases hkey : key = name
          · subst hkey
            simp [ofPresent, member?, Assignments.get?] at h
            simp [h]
          · apply List.mem_cons_of_mem
            apply ih
            simpa [ofPresent, member?, Assignments.get?, hkey] using h

end Json

/-- The identity of a contract has the right shape if its parts have. -/
theorem Contract.shape {c : Contract} (hname : c.name ≠ "") (hindex : ∀ i ∈ c.index, 0 ≤ i)
    (hkey : ∀ key ∈ c.publicKeyHex, Schema.isKeyText (.text key)) (path : List PathStep) :
  Schema.contract path c.toJson = []
  := by
  apply Schema.allOf_eq_nil_iff.mpr
  simp only [List.forall_mem_cons, List.not_mem_nil, false_implies, implies_true, and_true]
  refine ⟨rfl, rfl, ?_, ?_, ?_, ?_⟩
  · apply Schema.property_eq_nil_iff.mpr
    intro value hvalue
    obtain rfl : value = .text c.name := by
      simpa using Json.mem_of_member?_ofPresent hvalue
    apply TypeDesc.nonEmptyString_text _ hname
  · apply Schema.property_eq_nil_iff.mpr
    intro value hvalue
    obtain ⟨i, hi, rfl⟩ : ∃ i, c.index = some i ∧ .int i = value := by
      simpa using Json.mem_of_member?_ofPresent hvalue
    apply Schema.uint_nonneg _ (hindex i hi)
  · apply Schema.property_eq_nil_iff.mpr
    intro value hvalue
    obtain ⟨key, hmem, rfl⟩ : ∃ key, c.publicKeyHex = some key ∧ .text key = value := by
      simpa using Json.mem_of_member?_ofPresent hvalue
    simp [Schema.publicKey, Schema.expect, hkey key hmem]
  · apply Schema.property_eq_nil_iff.mpr
    intro value hvalue
    obtain ⟨id, -, rfl⟩ : ∃ id, c.id = some id ∧ .text id = value := by
      simpa using Json.mem_of_member?_ofPresent hvalue
    apply Schema.ofKind_string

/-- Every provenance has the right shape. -/
theorem Provenance.shape (p : Provenance) (path : List PathStep) :
  Schema.provenance path p.toJson = []
  := by
  have hstring : ∀ name ≠ "warnings",
      Schema.property name (Schema.ofKind .string) path p.toJson = [] := by
    intro name hname
    apply Schema.property_eq_nil_iff.mpr
    intro value hvalue
    obtain ⟨s, rfl⟩ : ∃ s, value = .text s := by
      have hmem := Json.mem_of_member?_ofPresent hvalue
      simp only [List.mem_cons, Prod.mk.injEq, hname, false_and, List.not_mem_nil, or_false,
        @eq_comm _ (some value), Option.map_eq_some_iff] at hmem
      grind
    apply Schema.ofKind_string
  have hwarnings : Schema.property "warnings"
      (Schema.allOf [Schema.ofKind .array, Schema.items (Schema.ofKind .string)]) path
      p.toJson = [] := by
    apply Schema.property_eq_nil_iff.mpr
    intro value hvalue
    obtain ⟨-, rfl⟩ : p.warnings ≠ [] ∧ value = .arr (p.warnings.map .text) := by
      simpa using Json.mem_of_member?_ofPresent hvalue
    apply Schema.allOf_eq_nil_iff.mpr
    simp only [List.forall_mem_cons, List.not_mem_nil, false_implies, implies_true, and_true]
    use rfl
    apply Schema.itemsFrom_eq_nil
    intro item hitem path
    obtain ⟨warning, -, rfl⟩ := List.mem_map.mp hitem
    apply Schema.ofKind_string
  apply Schema.allOf_eq_nil_iff.mpr
  simp only [List.forall_mem_cons, List.not_mem_nil, false_implies, implies_true, and_true]
  exact ⟨rfl, hstring _ (by decide), hstring _ (by decide), hstring _ (by decide),
    hstring _ (by decide), hstring _ (by decide), hstring _ (by decide), hwarnings⟩

namespace Document

variable {d : Document TypeDesc}

theorem checkEntriesFrom_eq_nil {entries : List (Entry TypeDesc)}
    (h : ∀ e ∈ entries, e.Consistent) (i : Nat) :
  checkEntriesFrom i (entries.map (Entry.toJson TypeDesc.toJson)) = .ok []
  := by
  induction entries generalizing i with
  | nil => rfl
  | cons e entries ih =>
      have hrest := ih (fun e' he' => h e' (List.mem_cons_of_mem e he')) (i + 1)
      have hsizes := (h e List.mem_cons_self).sizes ("entries[" ++ toString i ++ "]")
      change (do
        let errors ← checkSizes ("entries[" ++ toString i ++ "]") (e.toJson TypeDesc.toJson)
        return errors ++
          (← checkEntriesFrom (i + 1) (entries.map (Entry.toJson TypeDesc.toJson)))) = _
      rw [hsizes, hrest]
      rfl

/-- A document with the version of the format, a contract of the right shape and consistent
entries is valid. -/
theorem validate_eq_nil (hversion : d.version = documentVersion)
    (hcontract : ∀ path, Schema.contract path d.contract.toJson = [])
    (hentries : ∀ e ∈ d.entries, e.Consistent) :
  validate d.toJson = .ok []
  := by
  have hshape : Schema.document [] d.toJson = [] := by
    apply Schema.allOf_eq_nil_iff.mpr
    simp only [List.forall_mem_cons, List.not_mem_nil, false_implies, implies_true, and_true]
    refine ⟨rfl, rfl, ?_, ?_, ?_, ?_⟩
    · apply Schema.property_eq_nil_iff.mpr
      rintro _ ⟨⟩
      rw [hversion]
      rfl
    · apply Schema.property_eq_nil_iff.mpr
      rintro _ ⟨⟩
      apply hcontract
    · apply Schema.property_eq_nil_iff.mpr
      rintro _ ⟨⟩
      apply Schema.allOf_eq_nil_iff.mpr
      simp only [List.forall_mem_cons, List.not_mem_nil, false_implies, implies_true, and_true]
      use rfl
      apply Schema.itemsFrom_eq_nil
      intro item hitem path
      obtain ⟨e, he, rfl⟩ := List.mem_map.mp hitem
      apply (hentries e he).shape
    · apply Schema.property_eq_nil_iff.mpr
      intro value hvalue
      obtain ⟨p, -, rfl⟩ : ∃ p, d.provenance = some p ∧ p.toJson = value := by
        simpa using Json.mem_of_member?_ofPresent hvalue
      apply Provenance.shape
  have hsizes : sizeErrors d.toJson = .ok [] := checkEntriesFrom_eq_nil hentries 0
  simp [validate, shapeErrors, hshape, hsizes, bind, Except.bind, pure, Except.pure]

end Document

end ContractInterface
