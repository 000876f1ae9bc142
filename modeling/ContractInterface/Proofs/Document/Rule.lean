import ContractInterface.Document.Schema
import Mathlib.Data.List.Basic

/-!
# Following a rule

A value follows a rule at a path if the rule lists no violation there.  What this means is said
here for each way to put rules together.  The rule for type descriptions runs through the members
and items of a value by recursion; it is put together in the same ways (`typeRef_eq`).
-/

namespace ContractInterface.Schema

variable {path : List PathStep}

/-! ### Kinds of values -/

@[simp]
theorem expect_eq_nil_iff {ok : Bool} {message : Except Numeral.Error String} :
  expect ok path message = [] ↔ ok = true
  := by
  cases ok with
  | false => simp [expect]
  | true => simp [expect]

@[simp]
theorem ofKind_eq_nil_iff {kind : Kind} {v : Json} :
  ofKind kind path v = [] ↔ kind.accepts v = true
  := expect_eq_nil_iff

theorem accepts_object_iff {v : Json} :
  Kind.object.accepts v = true ↔ ∃ members, v = .obj members
  := by
  cases v <;> simp [Kind.accepts]

theorem accepts_array_iff {v : Json} :
  Kind.array.accepts v = true ↔ ∃ items, v = .arr items
  := by
  cases v <;> simp [Kind.accepts]

/-- A natural number, or a double that denotes one. -/
def IsUint (v : Json) : Prop :=
  (∃ n : Nat, v = .int n) ∨ ∃ x : Double, v = .float x ∧ x.isIntegral ∧ x.isNegative = false

theorem uint_eq_nil_iff {v : Json} :
  uint path v = [] ↔ IsUint v
  := by
  simp only [uint, List.append_eq_nil_iff, ofKind_eq_nil_iff, expect_eq_nil_iff]
  cases v with
  | int n =>
      have hnat : 0 ≤ n ↔ ∃ m : Nat, n = m := ⟨Int.eq_ofNat_of_zero_le, by omega⟩
      simp [Kind.accepts, isNegative, IsUint, hnat]
  | float x => simp [Kind.accepts, isNegative, IsUint]
  | null => simp [Kind.accepts, IsUint]
  | bool b => simp [Kind.accepts, IsUint]
  | str s => simp [Kind.accepts, IsUint]
  | arr items => simp [Kind.accepts, IsUint]
  | obj members => simp [Kind.accepts, IsUint]

theorem nonEmptyString_eq_nil_iff {v : Json} :
  nonEmptyString path v = [] ↔ ∃ s : JsonString, v = .str s ∧ s.isEmpty = false
  := by
  cases v <;> simp [nonEmptyString, Kind.accepts]

theorem among_eq_nil_iff {options : List String} {v : Json} :
  among options path v = [] ↔ ∃ s ∈ options, v = .text s
  := by
  simp [among]

/-! ### Parts of values -/

theorem allOf_eq_nil_iff {rules : List Rule} {v : Json} :
  allOf rules path v = [] ↔ ∀ rule ∈ rules, rule path v = []
  := List.flatMap_eq_nil_iff

theorem required_eq_nil_iff {names : List String} {members : Json.Members} :
  required names path (.obj members) = [] ↔
    ∀ name ∈ names, ∃ value, (Json.obj members).member? name = some value
  := by
  simp [required, Assignments.contains, Option.isSome_iff_exists, Json.member?]

theorem property_eq_nil_iff {name : String} {rule : Rule} {v : Json} :
  property name rule path v = [] ↔
    ∀ value, v.member? name = some value → rule (path ++ [.member name]) value = []
  := by
  unfold property
  cases v.member? name with
  | none => simp
  | some value => simp

/-- A member that must be there, and must follow a rule. -/
theorem exists_of_required {members : Json.Members} {names : List String} {name : String}
    {rule : Rule} (hrequired : required names path (.obj members) = []) (hname : name ∈ names)
    (hrule : property name rule path (.obj members) = []) :
  ∃ value, (Json.obj members).member? name = some value ∧
    rule (path ++ [.member name]) value = []
  := by
  obtain ⟨value, hvalue⟩ := required_eq_nil_iff.mp hrequired name hname
  exact ⟨value, hvalue, property_eq_nil_iff.mp hrule value hvalue⟩

/-- Every item follows the rule at some path. -/
theorem exists_of_itemsFrom_eq_nil {rule : Rule} {items : List Json} {i : Nat}
    (h : itemsFrom rule path i items = []) :
  ∀ item ∈ items, ∃ path, rule path item = []
  := by
  induction items generalizing i with
  | nil =>
      intro item hitem
      contradiction
  | cons item items ih =>
      rw [itemsFrom, List.append_eq_nil_iff] at h
      obtain ⟨hitem, hitems⟩ := h
      intro other hother
      rcases List.mem_cons.mp hother with rfl | hother
      · use path ++ [.position i]
      · apply ih hitems other hother

theorem itemsFrom_eq_nil {rule : Rule} {items : List Json} (i : Nat)
    (h : ∀ item ∈ items, ∀ path, rule path item = []) :
  itemsFrom rule path i items = []
  := by
  induction items generalizing i with
  | nil => rfl
  | cons item items ih =>
      rw [itemsFrom, h item List.mem_cons_self, List.nil_append]
      apply ih
      intro other hother
      apply h other (List.mem_cons_of_mem item hother)

/-! ### Type descriptions -/

/-- An object that is tagged with a form must follow a rule. -/
def whenTagged (type : String) (rule : Rule) : Rule := fun path v =>
  match v with
  | .obj members => if isTagged members type then rule path v else []
  | _ => []

/-- The rule of a field of a struct. -/
def structField : Rule :=
  allOf [ofKind .object, required ["name", "typeRef"], property "name" nonEmptyString,
    property "typeRef" typeRef]

theorem structField_obj (members : Json.Members) :
  structField path (.obj members) =
    required ["name", "typeRef"] path (.obj members) ++
      property "name" nonEmptyString path (.obj members) ++
      property "typeRef" typeRef path (.obj members)
  := by
  simp [structField, allOf, ofKind, expect, Kind.accepts]

theorem structField_of_not_obj {v : Json} (h : ∀ members, v ≠ .obj members) :
  structField path v = ofKind .object path v
  := by
  cases v with
  | obj members => exact absurd rfl (h members)
  | null | bool _ | int _ | float _ | str _ | arr _ =>
      simp [structField, allOf, required, property, Json.member?]

theorem typeRefUnder_eq (name : String) (members : Json.Members) :
  typeRefUnder name path members = property name typeRef path (.obj members)
  := by
  induction members with
  | nil => rfl
  | cons member members ih =>
      obtain ⟨key, value⟩ := member
      by_cases h : key = .text name
      · simp [typeRefUnder, property, Json.member?, Assignments.get?, h]
      · simpa [typeRefUnder, property, Json.member?, Assignments.get?, h] using ih

theorem fieldsFrom_eq (i : Nat) (items : List Json) :
  fieldsFrom path i items = itemsFrom structField path i items
  := by
  induction items generalizing i with
  | nil => rfl
  | cons item items ih =>
      have hrest := ih (i + 1)
      cases item with
      | obj members =>
          rw [fieldsFrom, itemsFrom, hrest, typeRefUnder_eq, structField_obj]
      | null | bool _ | int _ | float _ | str _ | arr _ =>
          rw [fieldsFrom, itemsFrom, hrest, structField_of_not_obj] <;> simp

theorem fieldsUnder_eq (members : Json.Members) :
  fieldsUnder path members =
    property "fields" (allOf [ofKind .array, items structField]) path (.obj members)
  := by
  induction members with
  | nil => rfl
  | cons member members ih =>
      obtain ⟨key, value⟩ := member
      by_cases h : key = .text "fields"
      · rw [fieldsUnder, if_pos h]
        cases value <;> simp [property, Json.member?, Assignments.get?, h, allOf, items, ofKind,
          expect, Kind.accepts, fieldsFrom_eq]
      · rw [fieldsUnder, if_neg h, ih]
        simp [property, Json.member?, Assignments.get?, h]

/-- The rule for type descriptions, put together from the rules for its forms. -/
theorem typeRef_eq (v : Json) :
  typeRef path v =
    allOf [ofKind .object, required ["type"], property "type" (among typeNames),
      whenTagged "nodata" (property "expectedSize" uint),
      whenTagged "bytes" (allOf [required ["length"], property "length" uint]),
      whenTagged "array"
        (allOf [required ["length", "item"], property "length" uint, property "item" typeRef]),
      whenTagged "struct"
        (allOf [required ["fields"],
          property "fields" (allOf [ofKind .array, items structField])])] path v
  := by
  cases v with
  | obj members =>
      rw [typeRef, typeRefUnder_eq, fieldsUnder_eq]
      have hobject : ofKind .object path (.obj members) = [] := rfl
      simp only [allOf, whenTagged, hobject, List.flatMap_cons, List.flatMap_nil,
        List.append_nil, List.nil_append, List.append_assoc]
  | null | bool _ | int _ | float _ | str _ | arr _ =>
      simp [typeRef, allOf, required, property, whenTagged, Json.member?]

end ContractInterface.Schema
