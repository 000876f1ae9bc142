import ContractInterface.Proofs.Document.WellFormed
import ContractInterface.Proofs.Json.Writable
import ContractInterface.Proofs.TypeDesc.RoundTrip

/-!
# Which drafts have no layout

The parts of a draft are listed in pre-order: a draft comes before its item, or its fields from left
to right.  A part is sound if it is a description and its length, if it has one, is a natural
number.  Laying out a draft stops at the first part that is not sound and reports that part; the
parts below an array of length zero count like all others.  A report shows a value, so there is none
about a value that is too long to be written; no value of a JSON text is.

What the reader of descriptions accepts has only sound parts, and the layout with checks gives it
the layout of the type that was read.
-/

namespace ContractInterface

namespace Draft

/-! ### Parts -/

mutual

/-- The parts of a draft in pre-order, from itself on. -/
def parts : Draft → List Draft
  | .nodata expectedSize => [.nodata expectedSize]
  | .scalar kind => [.scalar kind]
  | .bytes length => [.bytes length]
  | .m256i => [.m256i]
  | .array length item => .array length item :: parts item
  | .struct fields => .struct fields :: fieldParts fields
  | .foreign value => [.foreign value]

/-- The parts of the fields of a struct. -/
def fieldParts : List (Json × Draft) → List Draft
  | [] => []
  | (_, draft) :: fields => parts draft ++ fieldParts fields

end

/-- A part that is a description, with a natural number as its length if it has one. -/
def Sound : Draft → Prop
  | .bytes length => TypeDesc.IsNat length
  | .array length _ => TypeDesc.IsNat length
  | .foreign _ => False
  | .nodata _ | .scalar _ | .m256i | .struct _ => True

/-- What is said of a part that is not sound: the length that is no natural number, and whose it
is, or the value that is no description. -/
inductive Offends : Draft → Fault → Prop
  | bytes {length : Json} (h : ¬TypeDesc.IsNat length) :
    Offends (.bytes length) (.badLength "bytes.length" length)
  | array {length : Json} {item : Draft} (h : ¬TypeDesc.IsNat length) :
    Offends (.array length item) (.badLength "array.length" length)
  | foreign {value : Json} : Offends (.foreign value) (.notADescription value)

/-- What is said of the first part in pre-order that is not sound. -/
def FirstFault (draft : Draft) (e : Fault) : Prop :=
  ∃ front part back, draft.parts = front ++ part :: back ∧
    (∀ sound ∈ front, sound.Sound) ∧ part.Offends e

/-- A part of which the value that a report shows, if there is one, can be written. -/
def Showable : Draft → Prop
  | .bytes length => length.isWritable
  | .array length _ => length.isWritable
  | .foreign value => value.isWritable
  | .nodata _ | .scalar _ | .m256i | .struct _ => True

/-- A part without data expects no size, or an integer. -/
def Sized : Draft → Prop
  | .nodata expectedSize => expectedSize = .null ∨ ∃ n : Int, expectedSize = .int n
  | _ => True

/-! ### The fault of a part -/

/-- What a length is refused for. -/
def lengthFault? (label : String) (value : Json) : Option Fault :=
  match value.nat? with
  | some _ => none
  | none => some (.badLength label value)

/-- What a part by itself is refused for. -/
def fault? : Draft → Option Fault
  | .bytes length => lengthFault? "bytes.length" length
  | .array length _ => lengthFault? "array.length" length
  | .foreign value => some (.notADescription value)
  | .nodata _ | .scalar _ | .m256i | .struct _ => none

section Fault

variable {label : String} {value : Json} {part : Draft} {e : Fault}

theorem nat?_eq_none_iff :
  value.nat? = none ↔ ¬TypeDesc.IsNat value
  := by
  simp only [Option.eq_none_iff_forall_ne_some, ne_eq, TypeDesc.nat?_eq_some_iff, TypeDesc.IsNat,
    not_exists]

theorem lengthFault?_eq_none_iff :
  lengthFault? label value = none ↔ TypeDesc.IsNat value
  := by
  rw [← not_iff_not, ← nat?_eq_none_iff, lengthFault?]
  cases value.nat? with
  | none => simp
  | some n => simp

theorem lengthFault?_eq_some_iff :
  lengthFault? label value = some e ↔ ¬TypeDesc.IsNat value ∧ .badLength label value = e
  := by
  rw [← nat?_eq_none_iff, lengthFault?]
  cases value.nat? with
  | none => simp
  | some n => simp

theorem fault?_eq_none_iff :
  part.fault? = none ↔ part.Sound
  := by
  cases part with
  | bytes length => exact lengthFault?_eq_none_iff
  | array length item => exact lengthFault?_eq_none_iff
  | foreign value => simp [fault?, Sound]
  | nodata _ | scalar _ | m256i | struct _ => simp [fault?, Sound]

theorem fault?_eq_some_iff :
  part.fault? = some e ↔ part.Offends e
  := by
  constructor
  · intro h
    cases part with
    | bytes length =>
        obtain ⟨hnat, rfl⟩ := lengthFault?_eq_some_iff.mp h
        exact .bytes hnat
    | array length item =>
        obtain ⟨hnat, rfl⟩ := lengthFault?_eq_some_iff.mp h
        exact .array hnat
    | foreign value =>
        obtain rfl := Option.some.inj h
        exact .foreign
    | nodata _ | scalar _ | m256i | struct _ => contradiction
  · intro h
    cases h with
    | bytes hnat => exact lengthFault?_eq_some_iff.mpr ⟨hnat, rfl⟩
    | array hnat => exact lengthFault?_eq_some_iff.mpr ⟨hnat, rfl⟩
    | foreign => rfl

theorem Showable.refusal_eq (hshowable : part.Showable) (hoffends : part.Offends e) :
  e.refusal = .fault e
  := by
  rw [Fault.refusal]
  cases hoffends with
  | bytes _ => exact if_pos hshowable
  | array _ => exact if_pos hshowable
  | foreign => exact if_pos hshowable

end Fault

/-! ### The refusal of a draft -/

/-- What a computation is refused for. -/
def refusal? {α : Type} : Except Refusal α → Option Refusal
  | .ok _ => none
  | .error e => some e

/-- What a part by itself is refused for. -/
def partRefusal? (part : Draft) : Option Refusal :=
  part.fault?.map Fault.refusal

section Refusal

variable {α β : Type}

theorem refusal?_eq_none_iff {x : Except Refusal α} :
  refusal? x = none ↔ ∃ a, x = .ok a
  := by
  cases x with
  | error e => simp [refusal?]
  | ok a => simp [refusal?]

theorem refusal?_eq_some_iff {x : Except Refusal α} {e : Refusal} :
  refusal? x = some e ↔ x = .error e
  := by
  cases x with
  | error e => simp [refusal?]
  | ok a => simp [refusal?]

@[simp]
theorem refusal?_map {x : Except Refusal α} (f : α → β) :
  refusal? (do return f (← x)) = refusal? x
  := by
  cases x with
  | error e => rfl
  | ok a => rfl

/-- The first refusal counts, if what follows is refused the same whatever was given. -/
theorem refusal?_bind {x : Except Refusal α} {f : α → Except Refusal β} {r : Option Refusal}
    (h : ∀ a, refusal? (f a) = r) :
  refusal? (x >>= f) = (refusal? x).or r
  := by
  cases x with
  | error e => rfl
  | ok a => exact h a

theorem refusal?_length (label : String) (value : Json) :
  refusal? (length label value) = (lengthFault? label value).map Fault.refusal
  := by
  rw [length, lengthFault?]
  cases value.nat? with
  | none => rfl
  | some n => rfl

theorem refusal?_nodataSize {expectedSize : Json}
    (h : expectedSize = .null ∨ ∃ n : Int, expectedSize = .int n) :
  refusal? (nodataSize expectedSize) = none
  := by
  rcases h with rfl | ⟨n, rfl⟩
  · rfl
  · rw [nodataSize]
    split
    · rfl
    · rfl

end Refusal

theorem findSome?_cons (part : Draft) (others : List Draft) :
  (part :: others).findSome? partRefusal? = part.partRefusal?.or (others.findSome? partRefusal?)
  := by
  rw [List.findSome?_cons]
  cases part.partRefusal? with
  | none => rfl
  | some e => rfl

mutual

/-- The layout of a draft is refused for its first part that is refused. -/
theorem refusal?_layout : (draft : Draft) → (∀ part ∈ draft.parts, part.Sized) →
    refusal? draft.layout = draft.parts.findSome? partRefusal?
  | .nodata expectedSize, hsized => by
      have hsize : (Draft.nodata expectedSize).Sized := hsized _ List.mem_cons_self
      rw [layout, refusal?_map, refusal?_nodataSize hsize]
      rfl
  | .scalar kind, _ => rfl
  | .bytes value, _ => by
      rw [layout, refusal?_map, refusal?_length, parts, List.findSome?_singleton, partRefusal?,
        fault?]
  | .m256i, _ => rfl
  | .array value item, hsized => by
      have hitem := refusal?_layout item fun part hpart =>
        hsized part (List.mem_cons_of_mem _ hpart)
      rw [layout, refusal?_bind fun n => (refusal?_map _).trans hitem, refusal?_length, parts,
        findSome?_cons, partRefusal?, fault?]
  | .struct fields, hsized => by
      have hfields := refusal?_fieldLayouts fields fun part hpart =>
        hsized part (List.mem_cons_of_mem _ hpart)
      rw [layout, refusal?_map, hfields, parts, findSome?_cons]
      rfl
  | .foreign value, _ => rfl

theorem refusal?_fieldLayouts : (fields : List (Json × Draft)) →
    (∀ part ∈ fieldParts fields, part.Sized) →
    refusal? (fieldLayouts fields) = (fieldParts fields).findSome? partRefusal?
  | [], _ => rfl
  | (name, draft) :: fields, hsized => by
      have hdraft := refusal?_layout draft fun part hpart =>
        hsized part (List.mem_append_left _ hpart)
      have hfields := refusal?_fieldLayouts fields fun part hpart =>
        hsized part (List.mem_append_right _ hpart)
      rw [fieldLayouts, refusal?_bind fun l => (refusal?_map _).trans hfields, hdraft, fieldParts,
        List.findSome?_append]

end

theorem partRefusal?_eq_none_iff {part : Draft} :
  part.partRefusal? = none ↔ part.Sound
  := by
  rw [partRefusal?, Option.map_eq_none_iff, fault?_eq_none_iff]

theorem partRefusal?_eq_some_iff {part : Draft} {e : Refusal} :
  part.partRefusal? = some e ↔ ∃ fault, part.Offends fault ∧ fault.refusal = e
  := by
  simp only [partRefusal?, Option.map_eq_some_iff, fault?_eq_some_iff]

/-- The layout of a draft is refused for its first part that is not sound. -/
theorem layout_eq_error_iff {draft : Draft} (hsized : ∀ part ∈ draft.parts, part.Sized)
    {e : Refusal} :
  draft.layout = .error e ↔ ∃ fault, draft.FirstFault fault ∧ fault.refusal = e
  := by
  rw [← refusal?_eq_some_iff, refusal?_layout draft hsized, List.findSome?_eq_some_iff]
  simp only [partRefusal?_eq_none_iff, partRefusal?_eq_some_iff]
  constructor
  · rintro ⟨front, part, back, hparts, ⟨fault, hoffends, hrefusal⟩, hsound⟩
    exact ⟨fault, ⟨front, part, back, hparts, hsound, hoffends⟩, hrefusal⟩
  · rintro ⟨fault, ⟨front, part, back, hparts, hsound, hoffends⟩, hrefusal⟩
    exact ⟨front, part, back, hparts, ⟨fault, hoffends, hrefusal⟩, hsound⟩

/-- If the values that reports show can be written, the first part that is not sound is
reported. -/
theorem FirstFault.refusal_eq {draft : Draft} {e : Fault}
    (hshowable : ∀ part ∈ draft.parts, part.Showable) (h : draft.FirstFault e) :
  e.refusal = .fault e
  := by
  obtain ⟨front, part, back, hparts, -, hoffends⟩ := h
  apply Showable.refusal_eq _ hoffends
  apply hshowable
  rw [hparts]
  apply List.mem_append_right _ List.mem_cons_self

/-! ### Drafts of values that can be written -/

mutual

/-- The parts of a value that can be written can be shown. -/
theorem showable_ofJson : (v : Json) → v.isWritable → ∀ part ∈ (ofJson v).parts, part.Showable
  | .obj members => by
      intro h
      have hmembers : Json.membersWritable members := h
      have hlength := Json.isWritable_getD hmembers "length"
      rw [ofJson]
      split
      · split
        · simp [parts, Showable]
        · split
          · simp [parts, Showable]
          · split_ifs
            · simp [parts, Showable]
            · simpa [parts, Showable] using hlength
            · rw [parts, List.forall_mem_cons]
              exact ⟨hlength, showable_ofJsonUnder members hmembers⟩
            · rw [parts, List.forall_mem_cons]
              exact ⟨trivial, showable_ofJsonFields members hmembers⟩
            · rw [parts, List.forall_mem_singleton]
              exact h
      · rw [parts, List.forall_mem_singleton]
        exact h
  | .null | .bool _ | .int _ | .float _ | .str _ | .arr _ => by
      intro h
      rw [ofJson, parts, List.forall_mem_singleton]
      · exact h
      · simp

theorem showable_ofJsonUnder : (members : List (JsonString × Json)) →
    Json.membersWritable members → ∀ part ∈ (ofJsonUnder members).parts, part.Showable
  | [] => by
      simp [ofJsonUnder, parts, Showable, Json.isWritable]
  | (key, value) :: members => by
      intro h
      rw [Json.membersWritable, Bool.and_eq_true] at h
      rw [ofJsonUnder]
      split_ifs
      · exact showable_ofJson value h.1
      · exact showable_ofJsonUnder members h.2

theorem showable_ofJsonFields : (members : List (JsonString × Json)) →
    Json.membersWritable members → ∀ part ∈ fieldParts (ofJsonFields members), part.Showable
  | [] => by
      simp [ofJsonFields, fieldParts]
  | (key, value) :: members => by
      intro h
      rw [Json.membersWritable, Bool.and_eq_true] at h
      rw [ofJsonFields.eq_def]
      dsimp only
      split_ifs
      · cases value with
        | arr items => exact showable_ofJsonItems items h.1
        | null | bool _ | int _ | float _ | str _ | obj _ => simp [fieldParts]
      · exact showable_ofJsonFields members h.2

theorem showable_ofJsonItems : (items : List Json) →
    Json.itemsWritable items → ∀ part ∈ fieldParts (ofJsonItems items), part.Showable
  | [] => by
      simp [ofJsonItems, fieldParts]
  | item :: items => by
      intro h
      rw [Json.itemsWritable, Bool.and_eq_true] at h
      rw [ofJsonItems.eq_def]
      dsimp only
      rw [fieldParts, List.forall_mem_append]
      refine ⟨?_, showable_ofJsonItems items h.2⟩
      cases item with
      | obj members => exact showable_ofJsonType members h.1
      | null | bool _ | int _ | float _ | str _ | arr _ =>
          simp [parts, Showable, Json.isWritable]

theorem showable_ofJsonType : (members : List (JsonString × Json)) →
    Json.membersWritable members → ∀ part ∈ (ofJsonType members).parts, part.Showable
  | [] => by
      simp [ofJsonType, parts, Showable, Json.isWritable]
  | (key, value) :: members => by
      intro h
      rw [Json.membersWritable, Bool.and_eq_true] at h
      rw [ofJsonType]
      split_ifs
      · exact showable_ofJson value h.1
      · exact showable_ofJsonType members h.2

end

/-! ### Drafts of described values -/

/-- The draft of a value with a form. -/
def ofForm (members : Json.Members) : TypeDesc.Tag → Draft
  | .nodata => .nodata ((Json.obj members).memberOrNull "expectedSize")
  | .scalar kind => .scalar kind
  | .m256i => .m256i
  | .bytes => .bytes ((Json.obj members).memberOrNull "length")
  | .array =>
    .array ((Json.obj members).memberOrNull "length")
      (ofJson ((Json.obj members).memberOrNull "item"))
  | .struct => .struct (ofJsonFields members)

section Members

variable {members : Json.Members}

/-- A search through the members takes the first one with a name for a draft, or null. -/
theorem eq_ofJson_memberOrNull {search : Json.Members → Draft} {name : String}
    (hnil : search [] = .foreign .null)
    (hcons : ∀ key value members, search ((key, value) :: members) =
      if key = .text name then ofJson value else search members) :
  search members = ofJson ((Json.obj members).memberOrNull name)
  := by
  induction members with
  | nil => exact hnil
  | cons member members ih =>
      obtain ⟨key, value⟩ := member
      rw [hcons]
      by_cases h : key = .text name
      · simp [Json.memberOrNull, Json.member?, Assignments.get?, h]
      · rw [if_neg h, ih]
        simp [Json.memberOrNull, Json.member?, Assignments.get?, h]

theorem ofJsonUnder_eq :
  ofJsonUnder members = ofJson ((Json.obj members).memberOrNull "item")
  := eq_ofJson_memberOrNull (by rw [ofJsonUnder]) fun _ _ _ => by rw [ofJsonUnder]

theorem ofJsonType_eq :
  ofJsonType members = ofJson ((Json.obj members).memberOrNull "typeRef")
  := eq_ofJson_memberOrNull (by rw [ofJsonType]) fun _ _ _ => by rw [ofJsonType]

theorem ofJsonFields_of_member? {items : List Json}
    (h : (Json.obj members).member? "fields" = some (.arr items)) :
  ofJsonFields members = ofJsonItems items
  := by
  induction members with
  | nil => contradiction
  | cons member members ih =>
      obtain ⟨key, value⟩ := member
      by_cases hkey : key = .text "fields"
      · obtain rfl : value = .arr items := by
          simpa [Json.member?, Assignments.get?, hkey] using h
        rw [ofJsonFields, if_pos hkey]
      · have hmember : (Json.obj members).member? "fields" = some (.arr items) := by
          simpa [Json.member?, Assignments.get?, hkey] using h
        cases value <;> simp [ofJsonFields, hkey, ih hmember]

theorem ofJson_of_form {tag : TypeDesc.Tag} (hform : TypeDesc.HasForm (.obj members) tag) :
  ofJson (.obj members) = ofForm members tag
  := by
  have htag : Assignments.get? members "type" = some (.text tag.name) := hform
  rw [ofJson, htag]
  cases tag with
  | scalar kind => simp [TypeDesc.Tag.name, ofForm, TypeDesc.name_ne_nodata, TypeDesc.ofName?_name]
  | nodata | m256i | bytes | struct =>
      simp [TypeDesc.Tag.name, ofForm, Scalar.ofName?, Scalar.all, Scalar.name, Json.memberOrNull,
        Json.member?]
  | array =>
      simp [TypeDesc.Tag.name, ofForm, Scalar.ofName?, Scalar.all, Scalar.name, Json.memberOrNull,
        Json.member?, ofJsonUnder_eq]

end Members

end Draft

namespace Placement

variable {ν ν' : Type}

/-- The layout of a struct does not depend on the names of its fields. -/
theorem enclose_place_congr {fields : List (ν × Layout)} {fields' : List (ν' × Layout)}
    (h : fields.map Prod.snd = fields'.map Prod.snd) :
  enclose (place fields) = enclose (place fields')
  := by
  have hunnamed {μ : Type} (fields : List (μ × Layout)) :
      enclose (place fields) = enclose (place ((fields.map Prod.snd).map (Prod.mk ()))) := by
    have hmap : (fields.map Prod.snd).map (Prod.mk ()) =
        fields.map (Prod.map (fun _ => ()) id) := by
      rw [List.map_map]
      rfl
    rw [hmap, place, place, placeFrom_map, enclose_map]
  rw [hunnamed fields, h, ← hunnamed fields']

end Placement

namespace TypeDesc

/-! ### Layouts of described values -/

theorem memberOrNull_of_decodeNat {path name : String} {members : Json.Members} {n : Nat}
    (h : decodeNat path members name = .ok n) :
  (Json.obj members).memberOrNull name = .int n
  := by
  rw [decodeNat] at h
  split at h
  · rename_i m hm
    obtain rfl := Except.ok.inj h
    obtain ⟨size, hmember, hsize⟩ := Option.bind_eq_some_iff.mp hm
    rw [nat?_eq_some_iff.mp hsize] at hmember
    rw [Json.memberOrNull, Json.member?, hmember]
    rfl
  · contradiction

theorem nodataSize_of_decodeExpectedSize {path : String} {members : Json.Members}
    {size : Option Nat} (h : decodeExpectedSize path members = .ok size) :
  Draft.nodataSize ((Json.obj members).memberOrNull "expectedSize") = .ok (max 1 (size.getD 1))
  := by
  rw [decodeExpectedSize] at h
  split at h
  · rename_i hmember
    obtain rfl := Except.ok.inj h
    rw [Json.memberOrNull, Json.member?, hmember]
    rfl
  · rename_i hmember
    obtain rfl := Except.ok.inj h
    rw [Json.memberOrNull, Json.member?, hmember]
    rfl
  · obtain ⟨n, hn, rfl⟩ := map_eq_ok_iff.mp h
    rw [memberOrNull_of_decodeNat hn, nodataSize_nat]
    rfl

/-- The layouts of fields that are read from objects whose types have the layouts of the types that
are read. -/
theorem layouts_of_decodeFields {items : List Json} {path : String} {i : Nat}
    {fields : List (JsonString × TypeDesc)} (h : decodeFields path i items = .ok fields)
    (hitems : ∀ item ∈ items, ∀ w, item.member? "typeRef" = some w →
      ∀ path type, decode path w = .ok type → (Draft.ofJson w).layout = .ok type.layout) :
  ∃ layouts, Draft.fieldLayouts (Draft.ofJsonItems items) = .ok layouts ∧
    layouts.map Prod.snd = (fieldLayouts fields).map Prod.snd
  := by
  induction items generalizing i fields with
  | nil =>
      obtain rfl := Except.ok.inj h
      exact ⟨[], rfl, rfl⟩
  | cons item items ih =>
      rw [decodeFields_cons] at h
      obtain ⟨⟨name, type⟩, hfield, h⟩ := bind_eq_ok_iff.mp h
      obtain ⟨rest, hrest, h⟩ := bind_eq_ok_iff.mp h
      obtain rfl := Except.ok.inj h
      obtain ⟨hhead, htail⟩ := List.forall_mem_cons.mp hitems
      cases item with
      | obj members =>
          obtain ⟨name', hname, hfield⟩ := bind_eq_ok_iff.mp hfield
          obtain ⟨type', htype, hfield⟩ := bind_eq_ok_iff.mp hfield
          obtain ⟨rfl, rfl⟩ := Prod.mk.inj (Except.ok.inj hfield)
          obtain ⟨w, hmember, hdecode⟩ := exists_of_decodeUnder htype
          obtain ⟨layouts, hlayouts, hsame⟩ := ih hrest htail
          have hlayout := hhead w hmember _ _ hdecode
          have hdraft : Draft.ofJsonType members = Draft.ofJson w := by
            rw [Draft.ofJsonType_eq, Json.memberOrNull, hmember]
            rfl
          refine ⟨((Assignments.get? members "name").getD .null, type'.layout) :: layouts, ?_, ?_⟩
          · rw [Draft.ofJsonItems, Draft.fieldLayouts, hdraft, hlayout, hlayouts]
            rfl
          · rw [List.map_cons, hsame, fieldLayouts, List.map_cons]
      | null | bool _ | int _ | float _ | str _ | arr _ => contradiction

/-- What has been read as a type has the layout of that type. -/
theorem layout_ofJson_of_decode {path : String} {v : Json} {type : TypeDesc}
    (h : decode path v = .ok type) :
  (Draft.ofJson v).layout = .ok type.layout
  := by
  -- by induction on the size of the value, since its parts are smaller
  induction hn : sizeOf v using Nat.strongRecOn generalizing path v type with
  | ind n ih =>
      have hpart {w : Json} (hw : Part v w) (path : String) (type : TypeDesc)
          (hdecode : decode path w = .ok type) : (Draft.ofJson w).layout = .ok type.layout := by
        apply ih (sizeOf w) _ hdecode rfl
        rw [← hn]
        apply hw.sizeOf_lt
      obtain ⟨tag, hform⟩ := exists_form_of_decode h
      obtain ⟨members, rfl⟩ := hform.exists_members
      rw [decode_of_form hform] at h
      rw [Draft.ofJson_of_form hform]
      cases tag with
      | nodata =>
          obtain ⟨size, hsize, rfl⟩ := map_eq_ok_iff.mp h
          rw [Draft.ofForm, Draft.layout, nodataSize_of_decodeExpectedSize hsize]
          rfl
      | scalar kind =>
          obtain rfl := Except.ok.inj h
          rfl
      | m256i =>
          obtain rfl := Except.ok.inj h
          rfl
      | bytes =>
          obtain ⟨length, hlength, rfl⟩ := map_eq_ok_iff.mp h
          rw [Draft.ofForm, memberOrNull_of_decodeNat hlength]
          rfl
      | array =>
          obtain ⟨length, hlength, h⟩ := bind_eq_ok_iff.mp h
          obtain ⟨item, hitem, h⟩ := bind_eq_ok_iff.mp h
          obtain rfl := Except.ok.inj h
          obtain ⟨w, hmember, hdecode⟩ := exists_of_decodeUnder hitem
          have hlayout := hpart (.item hform hmember) _ _ hdecode
          rw [Draft.ofForm, memberOrNull_of_decodeNat hlength, Json.memberOrNull, hmember,
            Option.getD_some, Draft.layout, hlayout]
          rfl
      | struct =>
          obtain ⟨fields, hfields, rfl⟩ := map_eq_ok_iff.mp h
          rw [decodeFieldsUnder_eq] at hfields
          split at hfields
          · rename_i items hmember
            obtain ⟨layouts, hlayouts, hsame⟩ := layouts_of_decodeFields hfields
              fun item hitem w htype => hpart (.field hform hmember hitem htype)
            rw [Draft.ofForm, Draft.ofJsonFields_of_member? hmember, Draft.layout, hlayouts]
            exact congrArg Except.ok (Placement.enclose_place_congr hsame)
          · contradiction

end TypeDesc

namespace Draft

/-- A negative length below an array of length zero, behind a side whose negative size is no fault,
and before a value that is no description. -/
def buriedFault : Draft :=
  .struct [(.text "a", .nodata (.int (-5))),
    (.text "b", .array (.int 0) (.struct [(.null, .array (.int 2) (.bytes (.int (-1))))])),
    (.text "c", .foreign (.bool true))]

end Draft

end ContractInterface
