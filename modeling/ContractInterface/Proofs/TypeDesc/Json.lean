import ContractInterface.Document.Schema
import ContractInterface.TypeDesc.Decode
import ContractInterface.TypeDesc.Encode
import Mathlib.Data.List.Basic

/-!
# The JSON form of a type

The JSON form of a type whose fields all have names that are not empty follows the rule for type
descriptions, and reading it gives the type back.
-/

namespace ContractInterface

namespace TypeDesc

/-! ### Names of fields -/

mutual

/-- All field names in a type, at any depth, satisfy a condition. -/
def Named (p : JsonString → Prop) : TypeDesc → Prop
  | .nodata _ | .scalar _ | .bytes _ | .m256i => True
  | .array _ item => Named p item
  | .struct fields => FieldsNamed p fields

/-- The names of fields, and all field names in their types, satisfy a condition. -/
def FieldsNamed (p : JsonString → Prop) : List (JsonString × TypeDesc) → Prop
  | [] => True
  | (name, type) :: fields => p name ∧ Named p type ∧ FieldsNamed p fields

end

/-- A name that is not empty. -/
def IsProperName (name : JsonString) : Prop := name.isEmpty = false

variable {p q : JsonString → Prop}

theorem fieldsNamed_iff (fields : List (JsonString × TypeDesc)) :
  FieldsNamed p fields ↔ ∀ field ∈ fields, p field.1 ∧ Named p field.2
  := by
  induction fields with
  | nil => simp [FieldsNamed]
  | cons field fields ih => simp [FieldsNamed, ih, and_assoc]

mutual

theorem Named.mono (hpq : ∀ name, p name → q name) :
  (type : TypeDesc) → Named p type → Named q type
  | .nodata _, h | .scalar _, h | .bytes _, h | .m256i, h => h
  | .array _ item, h => Named.mono hpq item h
  | .struct fields, h => FieldsNamed.mono hpq fields h

theorem FieldsNamed.mono (hpq : ∀ name, p name → q name) :
  (fields : List (JsonString × TypeDesc)) → FieldsNamed p fields → FieldsNamed q fields
  | [], h => h
  | (name, type) :: fields, ⟨hname, htype, hfields⟩ =>
      ⟨hpq name hname, Named.mono hpq type htype, FieldsNamed.mono hpq fields hfields⟩

end

/-! ### Shape of the JSON form -/

theorem mem_typeNames (kind : Scalar) :
  kind.name ∈ Schema.typeNames
  := by
  cases kind <;> decide

@[simp]
theorem uint_nat (path : List PathStep) (n : Nat) :
  Schema.uint path (.int n) = []
  := by
  have h : Schema.isNegative (.int n) = false := by
    simp [Schema.isNegative]
  simp [Schema.uint, Schema.ofKind, Schema.expect, Schema.Kind.accepts, h]

theorem among_typeNames (path : List PathStep) {type : String} (h : type ∈ Schema.typeNames) :
  Schema.among Schema.typeNames path (.text type) = []
  := by
  simp [Schema.among, Schema.expect, h]

theorem nonEmptyString_str (path : List PathStep) {name : JsonString} (h : IsProperName name) :
  Schema.nonEmptyString path (.str name) = []
  := by
  have hname : name.isEmpty = false := h
  simp [Schema.nonEmptyString, Schema.ofKind, Schema.expect, Schema.Kind.accepts, hname]

theorem nonEmptyString_text (path : List PathStep) {s : String} (h : s ≠ "") :
  Schema.nonEmptyString path (.text s) = []
  := by
  apply nonEmptyString_str
  simpa [IsProperName, JsonString.isEmpty, JsonString.points] using h

/-- The violations of an object that is tagged with a known form are those in the members that
the form asks for. -/
theorem typeRef_tagged (path : List PathStep) {type : String} (members : Json.Members)
    (h : type ∈ Schema.typeNames) :
  Schema.typeRef path (tagged type members) =
    (if type = "nodata" then
      Schema.property "expectedSize" Schema.uint path (tagged type members)
    else []) ++
    (if type = "bytes" then
      Schema.required ["length"] path (tagged type members) ++
        Schema.property "length" Schema.uint path (tagged type members)
    else []) ++
    (if type = "array" then
      Schema.required ["length", "item"] path (tagged type members) ++
        Schema.property "length" Schema.uint path (tagged type members) ++
        Schema.typeRefUnder "item" path members
    else []) ++
    (if type = "struct" then
      Schema.required ["fields"] path (tagged type members) ++ Schema.fieldsUnder path members
    else [])
  := by
  have htagged : ∀ other,
      Schema.isTagged ((.text "type", .text type) :: members) other = decide (type = other) := by
    intro other
    rw [Bool.eq_iff_iff]
    simp [Schema.isTagged, Assignments.get?]
  have htype : Schema.property "type" (Schema.among Schema.typeNames) path
      (tagged type members) = [] := by
    simp [Schema.property, Json.member?, tagged, Assignments.get?, among_typeNames _ h]
  rw [tagged] at htype ⊢
  simp [Schema.typeRef, htagged, htype, Schema.required, Schema.expect, Assignments.contains,
    Assignments.get?, Schema.typeRefUnder, Schema.fieldsUnder]

mutual

/-- The JSON form of a type follows the rule for type descriptions. -/
theorem typeRef_toJson :
  (type : TypeDesc) → Named IsProperName type → (path : List PathStep) →
    Schema.typeRef path type.toJson = []
  | .nodata expectedSize, _, path => by
      rw [toJson, typeRef_tagged _ _ (by decide)]
      cases expectedSize with
      | none => simp [Schema.property, tagged, Json.member?, Assignments.get?]
      | some n => simp [Schema.property, tagged, Json.member?, Assignments.get?]
  | .scalar kind, _, path => by
      rw [toJson, typeRef_tagged _ _ (mem_typeNames kind)]
      cases kind <;> rfl
  | .bytes length, _, path => by
      rw [toJson, typeRef_tagged _ _ (by decide)]
      simp [Schema.required, Schema.expect, Schema.property, tagged, Json.member?,
        Assignments.contains, Assignments.get?]
  | .m256i, _, path => by
      rw [toJson, typeRef_tagged _ _ (by decide)]
      rfl
  | .array length item, h, path => by
      have hitem := typeRef_toJson item h (path ++ [.member "item"])
      rw [toJson, typeRef_tagged _ _ (by decide)]
      simp [Schema.required, Schema.expect, Schema.property, tagged, Json.member?,
        Assignments.contains, Assignments.get?, Schema.typeRefUnder, hitem]
  | .struct fields, h, path => by
      have hfields := fieldsFrom_toJson fields h (path ++ [.member "fields"]) 0
      rw [toJson, typeRef_tagged _ _ (by decide)]
      simp [Schema.required, Schema.expect, tagged, Assignments.contains, Assignments.get?,
        Schema.fieldsUnder, hfields]

/-- The JSON forms of fields follow the rule for the fields of a struct. -/
theorem fieldsFrom_toJson :
  (fields : List (JsonString × TypeDesc)) → FieldsNamed IsProperName fields →
    (path : List PathStep) → (i : Nat) → Schema.fieldsFrom path i (fieldsToJson fields) = []
  | [], _, _, _ => rfl
  | (name, type) :: fields, ⟨hname, htype, hfields⟩, path, i => by
      have hrest := fieldsFrom_toJson fields hfields path (i + 1)
      have htype := typeRef_toJson type htype
      simp [fieldsToJson, Schema.fieldsFrom, Schema.required, Schema.expect, Schema.property,
        Json.member?, Assignments.contains, Assignments.get?, Schema.typeRefUnder,
        nonEmptyString_str _ hname, hrest, htype]

end

/-! ### Reading the JSON form -/

@[simp]
theorem nat?_nat (n : Nat) : Json.nat? (.int n) = some n := rfl

theorem ofName?_name (kind : Scalar) :
  Scalar.ofName? kind.name = some kind
  := by
  cases kind <;> decide

theorem name_ne_nodata (kind : Scalar) :
  kind.name ≠ "nodata"
  := by
  cases kind <;> decide

mutual

/-- Reading the JSON form of a type gives the type, wherever the form stands. -/
theorem decode_toJson :
  (type : TypeDesc) → Named IsProperName type → (path : String) →
    decode path type.toJson = .ok type
  | .nodata none, _, path => by
      simp [toJson, tagged, decode, decodeExpectedSize, Assignments.get?, Functor.map,
        Except.map]
  | .nodata (some n), _, path => by
      simp [toJson, tagged, decode, decodeExpectedSize, decodeNat, Assignments.get?,
        Functor.map, Except.map]
  | .scalar kind, _, path => by
      simp [toJson, tagged, decode, Assignments.get?, name_ne_nodata, ofName?_name]
  | .bytes length, _, path => by
      simp [toJson, tagged, decode, decodeNat, Assignments.get?, Scalar.ofName?, Scalar.all,
        Scalar.name, Functor.map, Except.map]
  | .m256i, _, path => by
      simp [toJson, tagged, decode, Assignments.get?, Scalar.ofName?, Scalar.all, Scalar.name]
  | .array length item, h, path => by
      have hitem := decode_toJson item h (path ++ ".item")
      simp [toJson, tagged, decode, decodeNat, decodeUnder, Assignments.get?, Scalar.ofName?,
        Scalar.all, Scalar.name, hitem, bind, Except.bind, pure, Except.pure]
  | .struct fields, h, path => by
      have hfields := decodeFields_fieldsToJson fields h (path ++ ".fields") 0
      simp [toJson, tagged, decode, decodeFieldsUnder, Assignments.get?, Scalar.ofName?,
        Scalar.all, Scalar.name, hfields, Functor.map, Except.map]

/-- Reading the JSON forms of fields gives the fields. -/
theorem decodeFields_fieldsToJson :
  (fields : List (JsonString × TypeDesc)) → FieldsNamed IsProperName fields → (path : String) →
    (i : Nat) → decodeFields path i (fieldsToJson fields) = .ok fields
  | [], _, _, _ => rfl
  | (name, type) :: fields, ⟨hname, htype, hfields⟩, path, i => by
      have hrest := decodeFields_fieldsToJson fields hfields path (i + 1)
      have htype := decode_toJson type htype
      have hempty : name.isEmpty = false := hname
      simp [fieldsToJson, decodeFields, decodeName, decodeUnder, Assignments.get?, hempty, hrest,
        htype, bind, Except.bind, pure, Except.pure]

end

end TypeDesc

end ContractInterface
