import ContractInterface.Proofs.Document.Rule
import ContractInterface.Proofs.Except
import ContractInterface.Proofs.TypeDesc.Form
import ContractInterface.Proofs.TypeDesc.Json

/-!
# What the rule and the reader accept

The rule for type descriptions and the reading of descriptions are checkers that follow the same
forms.  The rule takes a double that denotes a natural number for a size, and the reader does not.
The reader takes null for an expected size, and the rule does not.  They differ in nothing else, so
on values without doubles they part only at sides without data whose expected size is null.
-/

namespace ContractInterface

namespace TypeDesc

/-! ### The rule as a checker -/

section Rule

open Schema

variable {path : List PathStep} {v : Json}

theorem Tag.name_mem_typeNames (tag : Tag) :
  tag.name ∈ typeNames
  := by
  cases tag with
  | scalar kind => apply mem_typeNames
  | nodata | m256i | bytes | array | struct => decide

theorem Tag.exists_of_mem_typeNames {type : String} (h : type ∈ typeNames) :
  ∃ tag : Tag, type = tag.name
  := by
  simp only [typeNames, List.mem_cons, List.not_mem_nil, or_false] at h
  rcases h with rfl | rfl | rfl | rfl | rfl | rfl | rfl | rfl | rfl | rfl | rfl | rfl | rfl | rfl
  · exact ⟨.nodata, rfl⟩
  · exact ⟨.scalar .u8, rfl⟩
  · exact ⟨.scalar .u16, rfl⟩
  · exact ⟨.scalar .u32, rfl⟩
  · exact ⟨.scalar .u64, rfl⟩
  · exact ⟨.scalar .i8, rfl⟩
  · exact ⟨.scalar .i16, rfl⟩
  · exact ⟨.scalar .i32, rfl⟩
  · exact ⟨.scalar .i64, rfl⟩
  · exact ⟨.scalar .bool, rfl⟩
  · exact ⟨.m256i, rfl⟩
  · exact ⟨.bytes, rfl⟩
  · exact ⟨.array, rfl⟩
  · exact ⟨.struct, rfl⟩

/-- What the rule asks of the values of a form. -/
def formRule : Tag → Rule
  | .nodata => property "expectedSize" uint
  | .scalar _ | .m256i => allOf []
  | .bytes => allOf [required ["length"], property "length" uint]
  | .array =>
    allOf [required ["length", "item"], property "length" uint, property "item" typeRef]
  | .struct =>
    allOf [required ["fields"], property "fields" (allOf [ofKind .array, items structField])]

theorem exists_form_of_typeRef (h : typeRef path v = []) :
  ∃ tag, HasForm v tag
  := by
  rw [typeRef_eq, allOf_eq_nil_iff] at h
  simp only [List.forall_mem_cons, ofKind_eq_nil_iff, accepts_object_iff] at h
  obtain ⟨⟨members, rfl⟩, hrequired, htype, -⟩ := h
  obtain ⟨value, hvalue⟩ := (required_eq_nil_iff.mp hrequired) "type" List.mem_cons_self
  obtain ⟨type, hmem, rfl⟩ := among_eq_nil_iff.mp (property_eq_nil_iff.mp htype value hvalue)
  obtain ⟨tag, rfl⟩ := Tag.exists_of_mem_typeNames hmem
  exact ⟨tag, hvalue⟩

/-- Of a value with a known form, nothing but what the form asks for is asked. -/
theorem typeRef_of_form {tag : Tag} (hform : HasForm v tag) :
  typeRef path v = formRule tag path v
  := by
  obtain ⟨members, rfl⟩ := hform.exists_members
  have htag : Assignments.get? members "type" = some (.text tag.name) := hform
  have htype : property "type" (among typeNames) path (.obj members) = [] := by
    apply property_eq_nil_iff.mpr
    intro value hvalue
    obtain rfl := Option.some.inj (hform.symm.trans hvalue)
    apply among_typeNames _ tag.name_mem_typeNames
  have hobject : ofKind .object path (.obj members) = [] := rfl
  have hrequired : required ["type"] path (.obj members) = [] := by
    apply required_eq_nil_iff.mpr
    simpa using ⟨_, hform⟩
  rw [typeRef_eq]
  simp only [allOf, List.flatMap_cons, List.flatMap_nil, hobject, hrequired, htype,
    List.nil_append, List.append_nil, whenTagged, isTagged, htag]
  -- all that remains are the parts for the tags, of which at most one applies
  cases tag with
  | scalar kind => cases kind <;> simp [formRule, allOf, Tag.name, Scalar.name]
  | nodata | m256i | bytes | array | struct => simp [formRule, allOf, Tag.name]

theorem structField_eq_nil_iff {field : Json} :
  structField path field = [] ↔
    IsField (fun type => typeRef (path ++ [.member "typeRef"]) type = []) field
  := by
  rw [structField, allOf_eq_nil_iff]
  simp only [List.forall_mem_cons, List.not_mem_nil, false_implies, implies_true, and_true,
    ofKind_eq_nil_iff, accepts_object_iff, property_eq_nil_iff, nonEmptyString_eq_nil_iff]
  constructor
  · rintro ⟨⟨members, rfl⟩, hrequired, hname, htype⟩
    rw [required_eq_nil_iff] at hrequired
    obtain ⟨value, hvalue⟩ := hrequired "name" (by simp)
    obtain ⟨type, hmember⟩ := hrequired "typeRef" (by simp)
    obtain ⟨name, rfl, hempty⟩ := hname value hvalue
    exact ⟨name, type, hvalue, hempty, hmember, htype type hmember⟩
  · rintro ⟨name, type, hname, hempty, hmember, htype⟩
    cases field with
    | obj members =>
        refine ⟨⟨members, rfl⟩, ?_, ?_, ?_⟩
        · simp [required_eq_nil_iff, hname, hmember]
        · intro value hvalue
          obtain rfl := Option.some.inj (hname.symm.trans hvalue)
          exact ⟨name, rfl, hempty⟩
        · intro value hvalue
          obtain rfl := Option.some.inj (hmember.symm.trans hvalue)
          exact htype
    | null | bool _ | int _ | float _ | str _ | arr _ => contradiction

/-- The rule for type descriptions follows the forms. -/
theorem form_of_typeRef (h : typeRef path v = []) :
  Form IsUint IsUint (fun w => ∃ path, typeRef path w = []) v
  := by
  obtain ⟨tag, hform⟩ := exists_form_of_typeRef h
  obtain ⟨members, rfl⟩ := hform.exists_members
  rw [typeRef_of_form hform] at h
  cases tag with
  | nodata =>
      apply Form.nodata hform
      intro size hsize
      apply (uint_eq_nil_iff).mp (property_eq_nil_iff.mp h size hsize)
  | scalar kind => apply Form.scalar kind hform
  | m256i => apply Form.m256i hform
  | bytes =>
      simp only [formRule, allOf_eq_nil_iff, List.forall_mem_cons] at h
      obtain ⟨hrequired, hlength, -⟩ := h
      obtain ⟨size, hmember, hsize⟩ := exists_of_required hrequired (by simp) hlength
      apply Form.bytes hform hmember (uint_eq_nil_iff.mp hsize)
  | array =>
      simp only [formRule, allOf_eq_nil_iff, List.forall_mem_cons] at h
      obtain ⟨hrequired, hlength, hitem, -⟩ := h
      obtain ⟨size, hmember, hsize⟩ := exists_of_required hrequired (by simp) hlength
      obtain ⟨item, hitem, htype⟩ := exists_of_required hrequired (by simp) hitem
      apply Form.array hform hmember (uint_eq_nil_iff.mp hsize) hitem ⟨_, htype⟩
  | struct =>
      simp only [formRule, allOf_eq_nil_iff, List.forall_mem_cons] at h
      obtain ⟨hrequired, hfields, -⟩ := h
      obtain ⟨value, hmember, hvalue⟩ := exists_of_required hrequired (by simp) hfields
      simp only [allOf_eq_nil_iff, List.forall_mem_cons, ofKind_eq_nil_iff, accepts_array_iff]
        at hvalue
      obtain ⟨⟨items, rfl⟩, hitems, -⟩ := hvalue
      apply Form.struct hform hmember
      intro field hfield
      obtain ⟨path', hpath'⟩ := exists_of_itemsFrom_eq_nil hitems field hfield
      apply (structField_eq_nil_iff.mp hpath').imp
      intro type _ htype
      exact ⟨_, htype⟩

theorem typeRef_eq_nil_of_form (h : Form IsUint IsUint (fun w => ∀ path, typeRef path w = []) v)
    (path : List PathStep) :
  typeRef path v = []
  := by
  cases h with
  | nodata hform hsize =>
      rw [typeRef_of_form hform]
      apply property_eq_nil_iff.mpr
      intro size hmember
      apply uint_eq_nil_iff.mpr (hsize size hmember)
  | scalar kind hform => rw [typeRef_of_form hform, formRule, allOf, List.flatMap_nil]
  | m256i hform => rw [typeRef_of_form hform, formRule, allOf, List.flatMap_nil]
  | bytes hform hmember hsize =>
      rw [typeRef_of_form hform]
      obtain ⟨members, rfl⟩ := hform.exists_members
      simp [formRule, allOf_eq_nil_iff, required_eq_nil_iff, property_eq_nil_iff, hmember,
        uint_eq_nil_iff, hsize]
  | array hform hmember hsize hitem h =>
      rw [typeRef_of_form hform]
      obtain ⟨members, rfl⟩ := hform.exists_members
      simp [formRule, allOf_eq_nil_iff, required_eq_nil_iff, property_eq_nil_iff, hmember,
        uint_eq_nil_iff, hsize, hitem, h]
  | @struct items hform hfields h =>
      rw [typeRef_of_form hform]
      obtain ⟨members, rfl⟩ := hform.exists_members
      have hstructField : ∀ field ∈ items, ∀ path, structField path field = [] := by
        intro field hfield path
        apply structField_eq_nil_iff.mpr
        apply (h field hfield).imp
        intro type _ htype
        apply htype
      have hitems : ∀ path, itemsFrom structField path 0 items = [] := by
        intro path
        apply itemsFrom_eq_nil 0 hstructField
      simp [formRule, allOf_eq_nil_iff, required_eq_nil_iff, property_eq_nil_iff, hfields,
        Kind.accepts, Schema.items, hitems]

end Rule

/-- The rule for type descriptions, as a checker. -/
def rule : Checker (List PathStep) where
  accepts path v := Schema.typeRef path v = []
  isLength := Schema.IsUint
  isExpectedSize := Schema.IsUint
  form := form_of_typeRef
  of_form := typeRef_eq_nil_of_form

/-! ### The reader as a checker -/

/-- A natural number. -/
def IsNat (v : Json) : Prop := ∃ n : Nat, v = .int n

section Reader

variable {path : String} {members : Json.Members} {v : Json}

theorem nat?_eq_some_iff {n : Nat} :
  v.nat? = some n ↔ v = .int n
  := by
  constructor
  · intro h
    unfold Json.nat? at h
    split at h
    · obtain rfl := Option.some.inj h
      rfl
    · contradiction
  · rintro rfl
    rfl

theorem exists_map_eq_ok_iff {ε α β : Type} {f : α → β} {x : Except ε α} :
  (∃ b, f <$> x = .ok b) ↔ ∃ a, x = .ok a
  := by
  cases x with
  | error e => simp [Functor.map, Except.map]
  | ok a => simp [Functor.map, Except.map]

theorem exists_decodeNat_iff {name : String} :
  (∃ n, decodeNat path members name = .ok n) ↔
    ∃ size, (Json.obj members).member? name = some size ∧ IsNat size
  := by
  have hok : (∃ n, decodeNat path members name = .ok n) ↔
      ∃ n, ((Json.obj members).member? name).bind Json.nat? = some n := by
    unfold decodeNat Json.member?
    split
    · rename_i n hn
      simp [hn]
    · rename_i hn
      simp [hn]
  rw [hok]
  simp only [Option.bind_eq_some_iff, nat?_eq_some_iff, IsNat]
  constructor
  · rintro ⟨n, size, hmember, hsize⟩
    exact ⟨size, hmember, n, hsize⟩
  · rintro ⟨size, hmember, n, hsize⟩
    exact ⟨n, size, hmember, hsize⟩

/-- An expected size, or null in its place. -/
def IsNatOrNull (v : Json) : Prop := IsNat v ∨ v = .null

theorem exists_decodeExpectedSize_iff :
  (∃ size, decodeExpectedSize path members = .ok size) ↔
    ∀ size, (Json.obj members).member? "expectedSize" = some size → IsNatOrNull size
  := by
  unfold decodeExpectedSize
  split
  · rename_i h
    simp [Json.member?, h]
  · rename_i h
    simp [Json.member?, h, IsNatOrNull]
  · rename_i size hnull h
    have hmember : (Json.obj members).member? "expectedSize" = some size := h
    rw [exists_map_eq_ok_iff, exists_decodeNat_iff]
    simp only [hmember, Option.some.injEq, forall_eq', exists_eq_left', IsNatOrNull]
    constructor
    · exact Or.inl
    · rintro (hnat | rfl)
      · exact hnat
      · exact absurd rfl hnull

theorem decodeUnder_eq (name : String) :
  decodeUnder path name members = decode path ((Json.obj members).memberOrNull name)
  := by
  induction members with
  | nil => simp [decodeUnder, Json.memberOrNull, Json.member?, Assignments.get?, decode]
  | cons member members ih =>
      obtain ⟨key, value⟩ := member
      rw [decodeUnder]
      by_cases h : key = .text name
      · simp [Json.memberOrNull, Json.member?, Assignments.get?, h]
      · rw [if_neg h, ih]
        simp [Json.memberOrNull, Json.member?, Assignments.get?, h]

theorem exists_decodeUnder_iff {name : String} :
  (∃ type, decodeUnder path name members = .ok type) ↔
    ∃ value, (Json.obj members).member? name = some value ∧ ∃ type, decode path value = .ok type
  := by
  rw [decodeUnder_eq, Json.memberOrNull]
  cases (Json.obj members).member? name with
  | none => simp [decode]
  | some value => simp

theorem decodeFieldsUnder_eq :
  decodeFieldsUnder path members =
    match (Json.obj members).member? "fields" with
    | some (.arr items) => decodeFields path 0 items
    | _ => .error ⟨path, .notArray⟩
  := by
  induction members with
  | nil => simp [decodeFieldsUnder, Json.member?, Assignments.get?]
  | cons member members ih =>
      obtain ⟨key, value⟩ := member
      by_cases h : key = .text "fields"
      · cases value <;> simp [decodeFieldsUnder, Json.member?, Assignments.get?, h]
      · cases value <;> simpa [decodeFieldsUnder, Json.member?, Assignments.get?, h] using ih

theorem exists_decodeFieldsUnder_iff :
  (∃ fields, decodeFieldsUnder path members = .ok fields) ↔
    ∃ items, (Json.obj members).member? "fields" = some (.arr items) ∧
      ∃ fields, decodeFields path 0 items = .ok fields
  := by
  rw [decodeFieldsUnder_eq]
  split
  · rename_i items h
    simp [h]
  · rename_i hnot
    simp only [reduceCtorEq, exists_false, false_iff]
    rintro ⟨items, hmember, -⟩
    apply hnot items hmember

theorem exists_decodeName_iff :
  (∃ name, decodeName path members = .ok name) ↔
    ∃ name, (Json.obj members).member? "name" = some (.str name) ∧ name.isEmpty = false
  := by
  unfold decodeName
  split
  · rename_i name h
    have hmember : (Json.obj members).member? "name" = some (.str name) := h
    cases hempty : name.isEmpty with
    | true => simp [hmember, hempty]
    | false => simp [hmember, hempty]
  · rename_i hnot
    simp only [reduceCtorEq, exists_false, false_iff]
    rintro ⟨name, hmember, -⟩
    apply hnot name hmember

/-- How a field of a struct is read. -/
def readField (path : String) : Json → Except DecodeError (JsonString × TypeDesc)
  | .obj members => do
    let name ← decodeName path members
    let type ← decodeUnder (path ++ ".typeRef") "typeRef" members
    return (name, type)
  | _ => .error ⟨path, .notObject⟩

theorem exists_readField_iff {field : Json} :
  (∃ entry, readField path field = .ok entry) ↔
    IsField (fun w => ∃ type, decode (path ++ ".typeRef") w = .ok type) field
  := by
  cases field with
  | obj members =>
      constructor
      · rintro ⟨entry, h⟩
        obtain ⟨name, hname, h⟩ := bind_eq_ok_iff.mp h
        obtain ⟨type, htype, -⟩ := bind_eq_ok_iff.mp h
        obtain ⟨key, hkey, hempty⟩ := exists_decodeName_iff.mp ⟨name, hname⟩
        obtain ⟨value, hvalue, hdecode⟩ := exists_decodeUnder_iff.mp ⟨type, htype⟩
        exact ⟨key, value, hkey, hempty, hvalue, hdecode⟩
      · rintro ⟨key, value, hkey, hempty, hvalue, hdecode⟩
        obtain ⟨name, hname⟩ := exists_decodeName_iff.mpr ⟨key, hkey, hempty⟩
        obtain ⟨type, htype⟩ := exists_decodeUnder_iff.mpr ⟨value, hvalue, hdecode⟩
        use (name, type)
        refine bind_eq_ok_iff.mpr ⟨name, hname, ?_⟩
        exact bind_eq_ok_iff.mpr ⟨type, htype, rfl⟩
  | null | bool _ | int _ | float _ | str _ | arr _ =>
      constructor
      · rintro ⟨entry, h⟩
        contradiction
      · rintro ⟨key, value, hkey, -⟩
        contradiction

theorem decodeFields_cons (i : Nat) (item : Json) (items : List Json) :
  decodeFields path i (item :: items) = (do
    let field ← readField (path ++ "[" ++ toString i ++ "]") item
    return field :: (← decodeFields path (i + 1) items))
  := by
  cases item <;> simp [decodeFields, readField]

/-- What the reader asks of the fields of a struct, one by one. -/
theorem isField_of_decodeFields {items : List Json} {i : Nat}
    {fields : List (JsonString × TypeDesc)} (h : decodeFields path i items = .ok fields) :
  ∀ field ∈ items, IsField (fun w => ∃ path type, decode path w = .ok type) field
  := by
  induction items generalizing i fields with
  | nil =>
      intro field hfield
      contradiction
  | cons item items ih =>
      rw [decodeFields_cons] at h
      obtain ⟨entry, hentry, h⟩ := bind_eq_ok_iff.mp h
      obtain ⟨rest, hrest, -⟩ := bind_eq_ok_iff.mp h
      intro field hfield
      rcases List.mem_cons.mp hfield with rfl | hfield
      · apply (exists_readField_iff.mp ⟨entry, hentry⟩).imp
        intro type _ htype
        exact ⟨_, htype⟩
      · apply ih hrest field hfield

theorem exists_decodeFields {items : List Json}
    (h : ∀ field ∈ items, IsField (fun w => ∀ path, ∃ type, decode path w = .ok type) field)
    (path : String) (i : Nat) :
  ∃ fields, decodeFields path i items = .ok fields
  := by
  induction items generalizing i with
  | nil => exact ⟨[], rfl⟩
  | cons item items ih =>
      obtain ⟨entry, hentry⟩ : ∃ entry,
          readField (path ++ "[" ++ toString i ++ "]") item = .ok entry := by
        apply exists_readField_iff.mpr
        apply (h item List.mem_cons_self).imp
        intro type _ htype
        apply htype
      obtain ⟨rest, hrest⟩ := ih (fun field hfield => h field (List.mem_cons_of_mem item hfield))
        (i + 1)
      use entry :: rest
      rw [decodeFields_cons]
      refine bind_eq_ok_iff.mpr ⟨entry, hentry, ?_⟩
      exact bind_eq_ok_iff.mpr ⟨rest, hrest, rfl⟩

/-- How the values of a form are read. -/
def readForm (path : String) (members : Json.Members) : Tag → Except DecodeError TypeDesc
  | .nodata => .nodata <$> decodeExpectedSize path members
  | .scalar kind => .ok (.scalar kind)
  | .m256i => .ok .m256i
  | .bytes => .bytes <$> decodeNat path members "length"
  | .array => do
    let length ← decodeNat path members "length"
    let item ← decodeUnder (path ++ ".item") "item" members
    return .array length item
  | .struct => .struct <$> decodeFieldsUnder (path ++ ".fields") members

theorem decode_of_form {tag : Tag} (hform : HasForm (.obj members) tag) :
  decode path (.obj members) = readForm path members tag
  := by
  have htag : Assignments.get? members "type" = some (.text tag.name) := hform
  rw [decode, htag]
  cases tag with
  | scalar kind => simp [Tag.name, readForm, name_ne_nodata, ofName?_name]
  | nodata | m256i | bytes | array | struct =>
      simp [Tag.name, readForm, Scalar.ofName?, Scalar.all, Scalar.name]

theorem exists_form_of_decode {type : TypeDesc} (h : decode path v = .ok type) :
  ∃ tag, HasForm v tag
  := by
  cases v with
  | obj members =>
      rw [decode] at h
      split at h
      · rename_i name hname
        have hform (tag : Tag) (htag : name = tag.name) : HasForm (.obj members) tag := by
          rw [htag] at hname
          exact hname
        -- the tests of the reader, in order
        by_cases hnodata : name = "nodata"
        · exact ⟨.nodata, hform .nodata hnodata⟩
        rw [if_neg hnodata] at h
        rcases hscalar : Scalar.ofName? name with _ | kind
        · rw [hscalar] at h
          dsimp only at h
          split at h
          · rename_i hm256i
            exact ⟨.m256i, hform .m256i hm256i⟩
          split at h
          · rename_i hbytes
            exact ⟨.bytes, hform .bytes hbytes⟩
          split at h
          · rename_i harray
            exact ⟨.array, hform .array harray⟩
          split at h
          · rename_i hstruct
            exact ⟨.struct, hform .struct hstruct⟩
          contradiction
        · use .scalar kind
          apply hform (.scalar kind)
          have hname : kind.name = name := by simpa using List.find?_some hscalar
          exact hname.symm
      · contradiction
      · contradiction
  | null | bool _ | int _ | float _ | str _ | arr _ => contradiction

/-- The reader follows the forms. -/
theorem form_of_decode {type : TypeDesc} (h : decode path v = .ok type) :
  Form IsNat IsNatOrNull (fun w => ∃ path type, decode path w = .ok type) v
  := by
  obtain ⟨tag, hform⟩ := exists_form_of_decode h
  obtain ⟨members, rfl⟩ := hform.exists_members
  rw [decode_of_form hform] at h
  cases tag with
  | nodata =>
      apply Form.nodata hform
      apply exists_decodeExpectedSize_iff.mp (exists_map_eq_ok_iff.mp ⟨type, h⟩)
  | scalar kind => apply Form.scalar kind hform
  | m256i => apply Form.m256i hform
  | bytes =>
      obtain ⟨size, hmember, hsize⟩ :=
        exists_decodeNat_iff.mp (exists_map_eq_ok_iff.mp ⟨type, h⟩)
      apply Form.bytes hform hmember hsize
  | array =>
      obtain ⟨length, hlength, h⟩ := bind_eq_ok_iff.mp h
      obtain ⟨item, hitem, -⟩ := bind_eq_ok_iff.mp h
      obtain ⟨size, hmember, hsize⟩ := exists_decodeNat_iff.mp ⟨length, hlength⟩
      obtain ⟨value, hvalue, hdecode⟩ := exists_decodeUnder_iff.mp ⟨item, hitem⟩
      apply Form.array hform hmember hsize hvalue ⟨_, hdecode⟩
  | struct =>
      obtain ⟨items, hmember, fields, hfields⟩ :=
        exists_decodeFieldsUnder_iff.mp (exists_map_eq_ok_iff.mp ⟨type, h⟩)
      apply Form.struct hform hmember (isField_of_decodeFields hfields)

theorem exists_decode_of_form
    (h : Form IsNat IsNatOrNull (fun w => ∀ path, ∃ type, decode path w = .ok type) v)
    (path : String) :
  ∃ type, decode path v = .ok type
  := by
  cases h with
  | nodata hform hsize =>
      obtain ⟨members, rfl⟩ := hform.exists_members
      rw [decode_of_form hform]
      apply exists_map_eq_ok_iff.mpr (exists_decodeExpectedSize_iff.mpr hsize)
  | scalar kind hform =>
      obtain ⟨members, rfl⟩ := hform.exists_members
      exact ⟨_, decode_of_form hform⟩
  | m256i hform =>
      obtain ⟨members, rfl⟩ := hform.exists_members
      exact ⟨_, decode_of_form hform⟩
  | bytes hform hmember hsize =>
      obtain ⟨members, rfl⟩ := hform.exists_members
      rw [decode_of_form hform]
      apply exists_map_eq_ok_iff.mpr (exists_decodeNat_iff.mpr ⟨_, hmember, hsize⟩)
  | array hform hmember hsize hitem h =>
      obtain ⟨members, rfl⟩ := hform.exists_members
      rw [decode_of_form hform]
      obtain ⟨length, hlength⟩ := exists_decodeNat_iff.mpr ⟨_, hmember, hsize⟩
      obtain ⟨type, htype⟩ := exists_decodeUnder_iff.mpr ⟨_, hitem, h (path ++ ".item")⟩
      use .array length type
      refine bind_eq_ok_iff.mpr ⟨length, hlength, ?_⟩
      exact bind_eq_ok_iff.mpr ⟨type, htype, rfl⟩
  | struct hform hfields h =>
      obtain ⟨members, rfl⟩ := hform.exists_members
      rw [decode_of_form hform]
      apply exists_map_eq_ok_iff.mpr
      apply exists_decodeFieldsUnder_iff.mpr ⟨_, hfields, exists_decodeFields h _ 0⟩

end Reader

/-- The reading of type descriptions, as a checker. -/
def reader : Checker String where
  accepts path v := ∃ type, decode path v = .ok type
  isLength := IsNat
  isExpectedSize := IsNatOrNull
  form := by
    rintro path v ⟨type, h⟩
    apply form_of_decode h
  of_form := exists_decode_of_form

/-! ### Where they differ -/

/-- The sizes that a description gives. -/
def HasSize (v size : Json) : Prop :=
  HasLength v size ∨ HasExpectedSize v size

section Differences

variable {path : List PathStep} {place : String} {v w : Json}

theorem isNat_of_isUint {size : Json} (h : Schema.IsUint size) (hfloat : ∀ x, size ≠ .float x) :
  IsNat size
  := by
  rcases h with hnat | ⟨x, rfl, -⟩
  · exact hnat
  · exact absurd rfl (hfloat x)

/-- A value that follows the rule can be read if no size in it is a double. -/
theorem exists_decode_of_typeRef (h : Schema.typeRef path v = [])
    (hfloat : ∀ w x, Visits v w → ¬HasSize w (.float x)) (place : String) :
  ∃ type, decode place v = .ok type
  := by
  have hnat {w size : Json} (hvisits : Visits v w) (hsize : HasSize w size)
      (huint : Schema.IsUint size) : IsNat size := by
    apply isNat_of_isUint huint
    rintro x rfl
    apply hfloat w x hvisits hsize
  apply rule.transfer reader h
  · intro w size hvisits hsize huint
    apply hnat hvisits (.inl hsize) huint
  · intro w size hvisits hsize huint
    exact .inl (hnat hvisits (.inr hsize) huint)

/-- No size in a value that can be read is a double. -/
theorem not_hasSize_float_of_decode {type : TypeDesc} (h : decode place v = .ok type)
    (hvisits : Visits v w) (x : Double) :
  ¬HasSize w (.float x)
  := by
  rintro (hsize | hsize)
  · obtain ⟨n, hn⟩ := reader.isLength_of_visits ⟨type, h⟩ hvisits hsize
    contradiction
  · rcases reader.isExpectedSize_of_visits ⟨type, h⟩ hvisits hsize with ⟨n, hn⟩ | hnull
    · contradiction
    · contradiction

/-- A value that can be read follows the rule if no expected size in it is null. -/
theorem typeRef_eq_nil_of_decode {type : TypeDesc} (h : decode place v = .ok type)
    (hnull : ∀ w, Visits v w → ¬HasExpectedSize w .null) (path : List PathStep) :
  Schema.typeRef path v = []
  := by
  apply reader.transfer rule ⟨type, h⟩
  · intro w size _ _ hnat
    exact .inl hnat
  · rintro w size hvisits hsize (hnat | rfl)
    · exact .inl hnat
    · exact absurd hsize (hnull w hvisits)

/-- No expected size in a value that follows the rule is null. -/
theorem not_hasExpectedSize_null_of_typeRef (h : Schema.typeRef path v = [])
    (hvisits : Visits v w) :
  ¬HasExpectedSize w .null
  := by
  intro hsize
  rcases rule.isExpectedSize_of_visits h hvisits hsize with ⟨n, hn⟩ | ⟨x, hx, -⟩
  · contradiction
  · contradiction

end Differences

end TypeDesc

/-! ### Values without doubles -/

namespace Json

mutual

/-- Whether a value contains no double. -/
def floatFree : Json → Bool
  | .null | .bool _ | .int _ | .str _ => true
  | .float _ => false
  | .arr items => itemsFloatFree items
  | .obj members => membersFloatFree members

/-- Whether none of the items contains a double. -/
def itemsFloatFree : List Json → Bool
  | [] => true
  | item :: items => floatFree item && itemsFloatFree items

/-- Whether none of the members contains a double. -/
def membersFloatFree : List (JsonString × Json) → Bool
  | [] => true
  | (_, value) :: members => floatFree value && membersFloatFree members

end

theorem floatFree_of_mem {items : List Json} {item : Json} (h : (Json.arr items).floatFree)
    (hitem : item ∈ items) :
  item.floatFree
  := by
  rw [floatFree] at h
  induction items with
  | nil => contradiction
  | cons other items ih =>
      rw [itemsFloatFree, Bool.and_eq_true] at h
      rcases List.mem_cons.mp hitem with rfl | hitem
      · exact h.1
      · apply ih h.2 hitem

theorem floatFree_of_member? {v w : Json} {name : String} (h : v.floatFree)
    (hmember : v.member? name = some w) :
  w.floatFree
  := by
  cases v with
  | obj members =>
      rw [floatFree] at h
      rw [member?] at hmember
      induction members with
      | nil => contradiction
      | cons member members ih =>
          rw [membersFloatFree, Bool.and_eq_true] at h
          rw [Assignments.get?] at hmember
          split at hmember
          · obtain rfl := Option.some.inj hmember
            exact h.1
          · apply ih h.2 hmember
  | null | bool _ | int _ | float _ | str _ | arr _ => contradiction

end Json

namespace TypeDesc

theorem floatFree_of_visits {v w : Json} (h : v.floatFree) (hvisits : Visits v w) :
  w.floatFree
  := by
  induction hvisits with
  | refl => exact h
  | tail _ hpart ih =>
      cases hpart with
      | item hform hitem => apply Json.floatFree_of_member? ih hitem
      | field hform hfields hfield htype =>
          have hitems := Json.floatFree_of_member? ih hfields
          apply Json.floatFree_of_member? (Json.floatFree_of_mem hitems hfield) htype

theorem not_hasSize_float_of_floatFree {v w : Json} (h : v.floatFree) (hvisits : Visits v w)
    (x : Double) :
  ¬HasSize w (.float x)
  := by
  have hw := floatFree_of_visits h hvisits
  rintro (⟨-, hmember⟩ | ⟨-, hmember⟩)
  · have hfloat := Json.floatFree_of_member? hw hmember
    contradiction
  · have hfloat := Json.floatFree_of_member? hw hmember
    contradiction

/-- On values without doubles, whatever follows the rule for type descriptions can be read.  What
can be read follows the rule, except exactly when the expected size of some side without data that
is met in it is null. -/
theorem accepted_alike {v : Json} (h : v.floatFree) (path : List PathStep) (place : String) :
  (Schema.typeRef path v = [] → ∃ type, decode place v = .ok type) ∧
  ((∃ type, decode place v = .ok type) →
    (Schema.typeRef path v = [] ↔ ¬∃ w, Visits v w ∧ HasExpectedSize w .null))
  := by
  constructor
  · intro hrule
    apply exists_decode_of_typeRef hrule
    intro w x hvisits
    apply not_hasSize_float_of_floatFree h hvisits
  · rintro ⟨type, htype⟩
    constructor
    · rintro hrule ⟨w, hvisits, hnull⟩
      apply not_hasExpectedSize_null_of_typeRef hrule hvisits hnull
    · intro hnull
      apply typeRef_eq_nil_of_decode htype
      intro w hvisits hsize
      exact hnull ⟨w, hvisits, hsize⟩

/-- A struct whose field is an array of sides without data, with null for their expected size. -/
def nullSized : Json :=
  .obj [("type", .text "struct"), ("fields", .arr [.obj [("name", .text "a"), ("typeRef",
    .obj [("length", .int 2), ("item", .obj [("expectedSize", .null), ("type", .text "nodata")]),
      ("type", .text "array"), ("note", .null)])]])]

theorem accepted_alike_nullSized :
  nullSized.floatFree ∧
  ((Schema.typeRef [] nullSized = [] → ∃ type, decode "typeRef" nullSized = .ok type) ∧
    ((∃ type, decode "typeRef" nullSized = .ok type) →
      (Schema.typeRef [] nullSized = [] ↔
        ¬∃ w, Visits nullSized w ∧ HasExpectedSize w .null))) ∧
  (∃ type, decode "typeRef" nullSized = .ok type) ∧ Schema.typeRef [] nullSized ≠ []
  := by
  have hfree : nullSized.floatFree := by decide +kernel
  have hok : (decode "typeRef" nullSized).isOk := by decide +kernel
  have hrule : Schema.typeRef [] nullSized ≠ [] := by decide +kernel
  exact ⟨hfree, accepted_alike hfree [] "typeRef", exists_of_isOk hok, hrule⟩

end TypeDesc

end ContractInterface
