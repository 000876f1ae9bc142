import ContractInterface.Proofs.TypeDesc.Acceptance

/-!
# Writing and reading descriptions

The JSON form of a description is one of the many values that are read as it: values may have other
members, in any order, and null for an expected size.  Whatever value a description has been read
from, all its fields have names, so its JSON form is read as the same description again.
-/

namespace ContractInterface

namespace TypeDesc

theorem isProperName_of_decodeName {path : String} {members : Json.Members} {name : JsonString}
    (h : decodeName path members = .ok name) :
  IsProperName name
  := by
  unfold decodeName at h
  split at h
  · split at h
    · contradiction
    · rename_i hempty
      obtain rfl := Except.ok.inj h
      rw [IsProperName]
      simpa using hempty
  · contradiction

/-- The type that a member is read as is that of a part of the value. -/
theorem exists_of_decodeUnder {path name : String} {members : Json.Members} {type : TypeDesc}
    (h : decodeUnder path name members = .ok type) :
  ∃ w, (Json.obj members).member? name = some w ∧ decode path w = .ok type
  := by
  rw [decodeUnder_eq, Json.memberOrNull] at h
  cases hmember : (Json.obj members).member? name with
  | none =>
      rw [hmember] at h
      contradiction
  | some w =>
      rw [hmember] at h
      exact ⟨w, rfl, h⟩

/-- Fields that are read from objects whose types are read as types with names have names. -/
theorem fieldsNamed_of_decodeFields {items : List Json} {path : String} {i : Nat}
    {fields : List (JsonString × TypeDesc)} (h : decodeFields path i items = .ok fields)
    (hitems : ∀ item ∈ items, ∀ w, item.member? "typeRef" = some w →
      ∀ path type, decode path w = .ok type → type.Named IsProperName) :
  FieldsNamed IsProperName fields
  := by
  induction items generalizing i fields with
  | nil =>
      obtain rfl := Except.ok.inj h
      trivial
  | cons item items ih =>
      rw [decodeFields_cons] at h
      obtain ⟨⟨name, type⟩, hfield, h⟩ := bind_eq_ok_iff.mp h
      obtain ⟨rest, hrest, h⟩ := bind_eq_ok_iff.mp h
      obtain rfl := Except.ok.inj h
      obtain ⟨hhead, htail⟩ := List.forall_mem_cons.mp hitems
      cases item with
      | obj members =>
          obtain ⟨name', hname, hfield⟩ := bind_eq_ok_iff.mp hfield
          obtain ⟨type', htype, hfield⟩ := bind_eq_ok_iff.mp hfield
          obtain ⟨rfl, rfl⟩ := Prod.mk.inj (Except.ok.inj hfield)
          obtain ⟨w, hmember, hdecode⟩ := exists_of_decodeUnder htype
          exact ⟨isProperName_of_decodeName hname, hhead w hmember _ _ hdecode, ih hrest htail⟩
      | null | bool _ | int _ | float _ | str _ | arr _ => contradiction

/-- All fields of a description that has been read have names. -/
theorem named_of_decode {path : String} {v : Json} {type : TypeDesc}
    (h : decode path v = .ok type) :
  type.Named IsProperName
  := by
  -- by induction on the size of the value, since its parts are smaller
  induction hn : sizeOf v using Nat.strongRecOn generalizing path v type with
  | ind n ih =>
      have hpart {w : Json} (hw : Part v w) (path : String) (type : TypeDesc)
          (hdecode : decode path w = .ok type) : type.Named IsProperName := by
        apply ih (sizeOf w) _ hdecode rfl
        rw [← hn]
        apply hw.sizeOf_lt
      obtain ⟨tag, hform⟩ := exists_form_of_decode h
      obtain ⟨members, rfl⟩ := hform.exists_members
      rw [decode_of_form hform] at h
      cases tag with
      | nodata =>
          obtain ⟨size, -, rfl⟩ := map_eq_ok_iff.mp h
          trivial
      | scalar kind =>
          obtain rfl := Except.ok.inj h
          trivial
      | m256i =>
          obtain rfl := Except.ok.inj h
          trivial
      | bytes =>
          obtain ⟨length, -, rfl⟩ := map_eq_ok_iff.mp h
          trivial
      | array =>
          obtain ⟨length, -, h⟩ := bind_eq_ok_iff.mp h
          obtain ⟨item, hitem, h⟩ := bind_eq_ok_iff.mp h
          obtain rfl := Except.ok.inj h
          obtain ⟨w, hmember, hdecode⟩ := exists_of_decodeUnder hitem
          apply hpart (.item hform hmember) _ _ hdecode
      | struct =>
          obtain ⟨fields, hfields, rfl⟩ := map_eq_ok_iff.mp h
          rw [decodeFieldsUnder_eq] at hfields
          split at hfields
          · rename_i items hmember
            apply fieldsNamed_of_decodeFields hfields
            intro item hitem w htype
            apply hpart (.field hform hmember hitem htype)
          · contradiction

/-- Writing a description whose fields all have names, and reading it anywhere, gives it back.
Whatever value a description has been read from, its fields have names; so it is read back from
its JSON form, and written in the same form again. -/
theorem decode_toJson_roundTrip :
  (∀ type : TypeDesc, type.Named IsProperName → ∀ path, decode path type.toJson = .ok type) ∧
  ∀ (path : String) (v : Json) (type : TypeDesc), decode path v = .ok type →
    type.Named IsProperName ∧
    ∀ path', decode path' type.toJson = .ok type ∧
      toJson <$> decode path' type.toJson = .ok type.toJson
  := by
  refine ⟨decode_toJson, ?_⟩
  intro path v type h
  have hnamed := named_of_decode h
  refine ⟨hnamed, fun path' => ?_⟩
  have hdecode := decode_toJson type hnamed path'
  rw [hdecode]
  exact ⟨rfl, rfl⟩

/-- A struct with members that no description needs, in an order in which no description is
written, with null for an expected size, and with a name that is no text. -/
def looseDescription : Json :=
  .obj [("note", .float (.finite false 1 0)), ("fields", .arr [
      .obj [("typeRef", .obj [("expectedSize", .null), ("type", .text "nodata")]),
        ("name", .text "a")],
      .obj [("name", .str (.broken [.char 'b', .half 0xdc00])), ("offset", .int (-1)), ("typeRef",
        .obj [("item", .obj [("type", .text "bytes"), ("length", .int 3)]),
          ("length", .int 2), ("type", .text "array")])]]),
    ("type", .text "struct")]

theorem decode_toJson_roundTrip_loose :
  let type : TypeDesc := .struct [("a", .nodata none),
    (.broken [.char 'b', .half 0xdc00], .array 2 (.bytes 3))]
  decode "typeRef" looseDescription = .ok type ∧
  looseDescription ≠ type.toJson ∧
  type.Named IsProperName ∧
  ∀ path', decode path' type.toJson = .ok type ∧
    toJson <$> decode path' type.toJson = .ok type.toJson
  := by
  intro type
  have hdecode : decode "typeRef" looseDescription = .ok type := by rfl
  have hne : looseDescription ≠ type.toJson := by decide +kernel
  have hroundTrip := decode_toJson_roundTrip.2 "typeRef" looseDescription type hdecode
  exact ⟨hdecode, hne, hroundTrip⟩

end TypeDesc

end ContractInterface
