import ContractInterface.Document.Validate
import ContractInterface.Proofs.TypeDesc.Acceptance

/-!
# Valid documents

A document without errors has the right shape, and every size that is declared in it by a natural
number is the size of its side, unless the side gives some size of its own by a double.  A double
without a fraction has the right shape, but cannot be read, so the size of such a side is not
checked.
-/

namespace ContractInterface.Document

/-! ### Sizes of sides -/

/-- The size that an entry declares by a natural number. -/
def declaredSize? (entry : Json) (sizeName : String) : Option Nat :=
  (entry.member? sizeName).bind Json.nat?

/-- If an entry declares a size for a side, then the side is read as a type of that size. -/
def SizeHolds (entry : Json) (path side sizeName : String) : Prop :=
  ∀ n, declaredSize? entry sizeName = some n →
    ∃ type, TypeDesc.decode (path ++ "." ++ side) (entry.memberOrNull side) = .ok type ∧
      type.size = n

/-- A description in which some size is given by a double. -/
def HasFloatSize (v : Json) : Prop :=
  ∃ w x, TypeDesc.Visits v w ∧ TypeDesc.HasSize w (.float x)

section Sides

variable {entry : Json} {path side sizeName : String}

/-- A size passes if it is right, or if its side cannot be read. -/
theorem checkSize_eq_nil_iff :
  checkSize entry path side sizeName = .ok [] ↔
    ∀ n, declaredSize? entry sizeName = some n → ∀ type,
      TypeDesc.decode (path ++ "." ++ side) (entry.memberOrNull side) = .ok type → type.size = n
  := by
  unfold checkSize declaredSize?
  cases (entry.member? sizeName).bind Json.nat? with
  | none => simp
  | some n =>
      cases TypeDesc.decode (path ++ "." ++ side) (entry.memberOrNull side) with
      | error e => simp
      | ok type =>
          by_cases hsize : type.size = n
          · simp [hsize]
          · simp [hsize, bind_eq_ok_iff, pure, Except.pure]

/-- A side of the right shape passes exactly if its size is right, or is not checked because of a
double. -/
theorem checkSize_eq_nil_iff_of_typeRef {shapePath : List PathStep}
    (h : Schema.typeRef shapePath (entry.memberOrNull side) = []) :
  checkSize entry path side sizeName = .ok [] ↔
    SizeHolds entry path side sizeName ∨ HasFloatSize (entry.memberOrNull side)
  := by
  rw [checkSize_eq_nil_iff]
  constructor
  · intro hsize
    by_cases hfloat : HasFloatSize (entry.memberOrNull side)
    · exact .inr hfloat
    · left
      intro n hn
      obtain ⟨type, htype⟩ : ∃ type,
          TypeDesc.decode (path ++ "." ++ side) (entry.memberOrNull side) = .ok type := by
        apply TypeDesc.exists_decode_of_typeRef h
        intro w x hvisits hx
        exact hfloat ⟨w, x, hvisits, hx⟩
      exact ⟨type, htype, hsize n hn type htype⟩
  · rintro (hholds | ⟨w, x, hvisits, hx⟩) n hn type htype
    · obtain ⟨type', htype', hsize⟩ := hholds n hn
      obtain rfl := Except.ok.inj (htype.symm.trans htype')
      exact hsize
    · exact absurd hx (TypeDesc.not_hasSize_float_of_decode htype hvisits x)

end Sides

/-! ### Entries -/

/-- The path of an entry. -/
def entryPath (i : Nat) : String := "entries[" ++ toString i ++ "]"

/-- Errors that are put together are none exactly if there are none on either side. -/
theorem prepend_eq_ok_nil_iff {ε α : Type} {errors : List α} {x : Except ε (List α)} :
  (do return errors ++ (← x)) = .ok [] ↔ errors = [] ∧ x = .ok []
  := by
  cases x with
  | error e => simp [bind, Except.bind]
  | ok errors' => simp [bind, Except.bind, pure, Except.pure]

theorem append_eq_ok_nil_iff {ε α : Type} {x y : Except ε (List α)} :
  (do
    let errors ← x
    return errors ++ (← y)) = .ok [] ↔ x = .ok [] ∧ y = .ok []
  := by
  rw [bind_eq_ok_iff]
  simp only [prepend_eq_ok_nil_iff]
  constructor
  · rintro ⟨errors, hx, rfl, hy⟩
    exact ⟨hx, hy⟩
  · rintro ⟨hx, hy⟩
    exact ⟨[], hx, rfl, hy⟩

theorem checkSizes_eq_nil_iff {entry : Json} {path : String} :
  checkSizes path entry = .ok [] ↔
    ∀ side ∈ sides, checkSize entry path side.1 side.2 = .ok []
  := by
  have heq : checkSizes path entry = (do
      let errors ← checkSize entry path "input" "inputSize"
      return errors ++ (← checkSize entry path "output" "outputSize")) := by
    simp [checkSizes, sides]
  rw [heq, append_eq_ok_nil_iff]
  simp [sides]

/-- What is not an object declares no sizes. -/
theorem checkSize_of_not_obj {entry : Json} (h : ∀ members, entry ≠ .obj members)
    (path side sizeName : String) :
  checkSize entry path side sizeName = .ok []
  := by
  cases entry with
  | obj members => exact absurd rfl (h members)
  | null | bool _ | int _ | float _ | str _ | arr _ => rfl

theorem checkEntriesFrom_cons_eq_nil_iff {entry : Json} {entries : List Json} {i : Nat} :
  checkEntriesFrom i (entry :: entries) = .ok [] ↔
    (∀ side ∈ sides, checkSize entry (entryPath i) side.1 side.2 = .ok []) ∧
    checkEntriesFrom (i + 1) entries = .ok []
  := by
  cases entry with
  | obj members =>
      rw [checkEntriesFrom, append_eq_ok_nil_iff, ← checkSizes_eq_nil_iff, entryPath]
  | null | bool _ | int _ | float _ | str _ | arr _ =>
      simp only [checkEntriesFrom]
      rw [append_eq_ok_nil_iff]
      simp [checkSize_of_not_obj]

/-- The sizes of entries pass if those of every entry do. -/
theorem checkEntriesFrom_eq_nil_iff {entries : List Json} {i : Nat} :
  checkEntriesFrom i entries = .ok [] ↔
    ∀ j entry, entries[j]? = some entry →
      ∀ side ∈ sides, checkSize entry (entryPath (i + j)) side.1 side.2 = .ok []
  := by
  induction entries generalizing i with
  | nil => simp [checkEntriesFrom]
  | cons entry entries ih =>
      rw [checkEntriesFrom_cons_eq_nil_iff, ih]
      constructor
      · rintro ⟨hfirst, hrest⟩ j other hother
        cases j with
        | zero =>
            obtain rfl : entry = other := by simpa using hother
            exact hfirst
        | succ j =>
            rw [← Nat.succ_add_eq_add_succ]
            apply hrest j other
            simpa using hother
      · intro h
        refine ⟨h 0 entry rfl, ?_⟩
        intro j other hother
        rw [Nat.succ_add_eq_add_succ]
        apply h (j + 1) other
        simpa using hother

/-! ### Documents -/

/-- Both sides of the entries of a document of the right shape have the right shape. -/
theorem typeRef_of_document {v entry : Json} {entries : List Json}
    (h : Schema.document [] v = []) (hentries : v.member? "entries" = some (.arr entries))
    (hentry : entry ∈ entries) {side : String × String} (hside : side ∈ sides) :
  ∃ path, Schema.typeRef path (entry.memberOrNull side.1) = []
  := by
  simp only [Schema.document, Schema.allOf_eq_nil_iff, List.forall_mem_cons,
    Schema.property_eq_nil_iff] at h
  obtain ⟨-, -, -, -, h, -⟩ := h
  obtain ⟨-, hitems, -⟩ := h (.arr entries) hentries
  obtain ⟨path, hpath⟩ := Schema.exists_of_itemsFrom_eq_nil hitems entry hentry
  simp only [Schema.entry, Schema.allOf_eq_nil_iff, List.forall_mem_cons,
    Schema.ofKind_eq_nil_iff, Schema.accepts_object_iff] at hpath
  obtain ⟨⟨members, rfl⟩, hrequired, -, -, -, hinput, houtput, -⟩ := hpath
  simp only [sides, List.mem_cons, List.not_mem_nil, or_false] at hside
  rcases hside with rfl | rfl
  · obtain ⟨value, hvalue, htype⟩ := Schema.exists_of_required hrequired (by simp) hinput
    exact ⟨_, by rwa [Json.memberOrNull, hvalue]⟩
  · obtain ⟨value, hvalue, htype⟩ := Schema.exists_of_required hrequired (by simp) houtput
    exact ⟨_, by rwa [Json.memberOrNull, hvalue]⟩

theorem shapeErrors_eq_nil_iff {v : Json} :
  shapeErrors v = .ok [] ↔ Schema.document [] v = []
  := by
  constructor
  · intro h
    obtain ⟨messages, hmessages, h⟩ := bind_eq_ok_iff.mp h
    have hlength := congrArg List.length (Except.ok.inj h)
    rw [List.length_map, List.length_mergeSort] at hlength
    obtain rfl := List.length_eq_zero_iff.mp hlength
    cases hshape : Schema.document [] v with
    | nil => rfl
    | cons e es =>
        rw [hshape, List.mapM_cons] at hmessages
        obtain ⟨message, -, hmessages⟩ := bind_eq_ok_iff.mp hmessages
        obtain ⟨rest, -, hmessages⟩ := bind_eq_ok_iff.mp hmessages
        exact absurd (Except.ok.inj hmessages) (List.cons_ne_nil _ _)
  · intro h
    simp [shapeErrors, h, bind, Except.bind, pure, Except.pure]

theorem sizeErrors_eq_nil_iff {v : Json} :
  sizeErrors v = .ok [] ↔
    ∀ entries, v.member? "entries" = some (.arr entries) →
      ∀ i entry, entries[i]? = some entry → ∀ side ∈ sides,
        checkSize entry (entryPath i) side.1 side.2 = .ok []
  := by
  unfold sizeErrors
  split
  · rename_i entries hentries
    rw [checkEntriesFrom_eq_nil_iff]
    simp [hentries]
  · rename_i hnot
    simp only [true_iff]
    intro entries hentries
    exact absurd hentries (hnot entries)

/-- A document is without errors exactly if it has the right shape, and each size that it declares
by a natural number is the size of the type as which the side is read, or the side gives some size
by a double. -/
theorem validate_eq_nil_iff (v : Json) :
  validate v = .ok [] ↔
    Schema.document [] v = [] ∧
    ∀ entries, v.member? "entries" = some (.arr entries) →
      ∀ i entry, entries[i]? = some entry → ∀ side ∈ sides,
        SizeHolds entry (entryPath i) side.1 side.2 ∨ HasFloatSize (entry.memberOrNull side.1)
  := by
  rw [validate, append_eq_ok_nil_iff, shapeErrors_eq_nil_iff, sizeErrors_eq_nil_iff]
  apply and_congr_right
  intro hshape
  -- the sides have the right shape, so that they pass for one of the two reasons
  have hside {entries entry side i} (hentries : v.member? "entries" = some (.arr entries))
      (hentry : entries[i]? = some entry) (hside : side ∈ sides) :
      checkSize entry (entryPath i) side.1 side.2 = .ok [] ↔
        SizeHolds entry (entryPath i) side.1 side.2 ∨
          HasFloatSize (entry.memberOrNull side.1) := by
    obtain ⟨path, hpath⟩ :=
      typeRef_of_document hshape hentries (List.mem_of_getElem? hentry) hside
    apply checkSize_eq_nil_iff_of_typeRef hpath
  constructor
  · intro h entries hentries i entry hentry side hmem
    apply (hside hentries hentry hmem).mp (h entries hentries i entry hentry side hmem)
  · intro h entries hentries i entry hentry side hmem
    apply (hside hentries hentry hmem).mpr (h entries hentries i entry hentry side hmem)

/-- An entry that declares a size of 999 bytes for a side of 4 bytes, whose length is given by the
double 4.0. -/
def floatEntry : Json :=
  .obj [("kind", .text "function"), ("name", .text "F"), ("inputType", .int 1),
    ("input", .obj [("type", .text "bytes"), ("length", .float (.ofRatio false 4 1))]),
    ("output", .obj [("type", .text "nodata")]), ("inputSize", .int 999)]

/-- A document with a single entry. -/
def floatDocument : Json :=
  .obj [("qbiVersion", .text "0.1"), ("contract", .obj [("name", .text "C")]),
    ("entries", .arr [floatEntry])]

/-- A size that is declared in a document without errors may be wrong. -/
theorem validate_floatDocument :
  ¬(validate floatDocument = .ok [] ↔
    Schema.document [] floatDocument = [] ∧
    ∀ entries, floatDocument.member? "entries" = some (.arr entries) →
      ∀ i entry, entries[i]? = some entry → ∀ side ∈ sides,
        SizeHolds entry (entryPath i) side.1 side.2)
  := by
  have hvalid : validate floatDocument = .ok [] := by decide +kernel
  have hrefused : (TypeDesc.decode (entryPath 0 ++ "." ++ "input")
      (floatEntry.memberOrNull "input")).isOk = false := by decide +kernel
  intro h
  obtain ⟨-, hholds⟩ := h.mp hvalid
  obtain ⟨type, htype, -⟩ :=
    hholds [floatEntry] rfl 0 floatEntry rfl ("input", "inputSize") (by decide) 999 rfl
  rw [htype] at hrefused
  contradiction

end ContractInterface.Document
