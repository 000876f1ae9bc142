import ContractInterface.Json.Basic
import ContractInterface.TypeDesc.Basic
import Mathlib.Logic.Relation

/-!
# Forms of type descriptions

A value describes a type if it has one of a few forms.  What a description of each form consists
of is said here once (`Form`), given the values that count as lengths and as expected sizes.  A
`Checker` is a way to accept values that follows the forms, such as a rule or a reader.

Two checkers can differ only in what they take for sizes: what one of them accepts is accepted by
the other one too, if the sizes that are met on the way through the value are sizes to both.
-/

namespace ContractInterface

namespace Json

theorem sizeOf_lt_of_get? {members : Members} {w : Json} {name : JsonString}
    (h : Assignments.get? members name = some w) :
  sizeOf w < sizeOf members
  := by
  induction members with
  | nil => contradiction
  | cons member members ih =>
      obtain ⟨key, value⟩ := member
      rw [List.cons.sizeOf_spec, Prod.mk.sizeOf_spec]
      rw [Assignments.get?] at h
      split at h
      · obtain rfl := Option.some.inj h
        omega
      · have hlt := ih h
        omega

theorem sizeOf_lt_of_member? {v w : Json} {name : String} (h : v.member? name = some w) :
  sizeOf w < sizeOf v
  := by
  cases v with
  | obj members =>
      have hget : Assignments.get? members name = some w := h
      have hlt := sizeOf_lt_of_get? hget
      rw [obj.sizeOf_spec]
      omega
  | null | bool _ | int _ | float _ | str _ | arr _ => contradiction

end Json

namespace TypeDesc

/-! ### Tags -/

/-- The tags of descriptions. -/
inductive Tag where
  | nodata
  | scalar (kind : Scalar)
  | m256i
  | bytes
  | array
  | struct

/-- The name of a tag in descriptions. -/
def Tag.name : Tag → String
  | nodata => "nodata"
  | scalar kind => kind.name
  | m256i => "m256i"
  | bytes => "bytes"
  | array => "array"
  | struct => "struct"

theorem Tag.name_injective {tag tag' : Tag} (h : tag.name = tag'.name) :
  tag = tag'
  := by
  rcases tag with _ | (_ | _ | _ | _ | _ | _ | _ | _ | _) | _ | _ | _ | _ <;>
    rcases tag' with _ | (_ | _ | _ | _ | _ | _ | _ | _ | _) | _ | _ | _ | _ <;>
    first | rfl | exact absurd h (by decide)

/-- The value is tagged with a form. -/
def HasForm (v : Json) (tag : Tag) : Prop :=
  v.member? "type" = some (.text tag.name)

theorem HasForm.unique {v : Json} {tag tag' : Tag} (h : HasForm v tag) (h' : HasForm v tag') :
  tag = tag'
  := by
  have hname := h.symm.trans h'
  apply Tag.name_injective
  simpa using hname

theorem HasForm.exists_members {v : Json} {tag : Tag} (h : HasForm v tag) :
  ∃ members, v = .obj members
  := by
  cases v with
  | obj members => exact ⟨members, rfl⟩
  | null | bool _ | int _ | float _ | str _ | arr _ => contradiction

/-- The length that a run of bytes or an array gives. -/
def HasLength (v size : Json) : Prop :=
  (HasForm v .bytes ∨ HasForm v .array) ∧ v.member? "length" = some size

/-- The expected size that a side without data gives. -/
def HasExpectedSize (v size : Json) : Prop :=
  HasForm v .nodata ∧ v.member? "expectedSize" = some size

/-! ### Parts -/

/-- The descriptions that stand directly in a description. -/
inductive Part (v : Json) : Json → Prop
  | item {w : Json} (hform : HasForm v .array) (hitem : v.member? "item" = some w) : Part v w
  | field {items : List Json} {field w : Json} (hform : HasForm v .struct)
      (hfields : v.member? "fields" = some (.arr items)) (hfield : field ∈ items)
      (htype : field.member? "typeRef" = some w) : Part v w

/-- The descriptions that are met on the way through a description, from itself on. -/
def Visits : Json → Json → Prop := Relation.ReflTransGen Part

theorem Part.sizeOf_lt {v w : Json} (h : Part v w) :
  sizeOf w < sizeOf v
  := by
  cases h with
  | item hform hitem => apply Json.sizeOf_lt_of_member? hitem
  | @field items field _ hform hfields hfield htype =>
      calc
        sizeOf w < sizeOf field := Json.sizeOf_lt_of_member? htype
        _ < sizeOf items := List.sizeOf_lt_of_mem hfield
        _ < sizeOf (Json.arr items) := by simp
        _ < sizeOf v := Json.sizeOf_lt_of_member? hfields

/-! ### Forms -/

/-- An object with a name that is not empty and a description. -/
def IsField (describes : Json → Prop) (field : Json) : Prop :=
  ∃ name type, field.member? "name" = some (.str name) ∧ name.isEmpty = false ∧
    field.member? "typeRef" = some type ∧ describes type

theorem IsField.imp {describes describes' : Json → Prop} {field : Json}
    (h : IsField describes field)
    (himp : ∀ type, field.member? "typeRef" = some type → describes type → describes' type) :
  IsField describes' field
  := by
  obtain ⟨name, type, hname, hempty, htype, hdescribed⟩ := h
  exact ⟨name, type, hname, hempty, htype, himp type htype hdescribed⟩

/-- The forms of descriptions, given what counts as a length, as an expected size, and as a
description that stands in another one. -/
inductive Form (isLength isExpectedSize describes : Json → Prop) (v : Json) : Prop
  | nodata (hform : HasForm v .nodata)
      (hsize : ∀ size, v.member? "expectedSize" = some size → isExpectedSize size)
  | scalar (kind : Scalar) (hform : HasForm v (.scalar kind))
  | m256i (hform : HasForm v .m256i)
  | bytes {size : Json} (hform : HasForm v .bytes) (hlength : v.member? "length" = some size)
      (hsize : isLength size)
  | array {size item : Json} (hform : HasForm v .array)
      (hlength : v.member? "length" = some size) (hsize : isLength size)
      (hitem : v.member? "item" = some item) (h : describes item)
  | struct {items : List Json} (hform : HasForm v .struct)
      (hfields : v.member? "fields" = some (.arr items))
      (h : ∀ field ∈ items, IsField describes field)

namespace Form

variable {isLength isLength' isExpectedSize isExpectedSize' describes describes' : Json → Prop}
  {v w size : Json}

/-- What counts as a size, or as a description in another one, matters only where it is met. -/
theorem imp (h : Form isLength isExpectedSize describes v)
    (hlength : ∀ size, HasLength v size → isLength size → isLength' size)
    (hexpected : ∀ size, HasExpectedSize v size → isExpectedSize size → isExpectedSize' size)
    (hdescribes : ∀ w, Part v w → describes w → describes' w) :
  Form isLength' isExpectedSize' describes' v
  := by
  cases h with
  | nodata hform hsize =>
      apply Form.nodata hform
      intro size hmember
      apply hexpected size ⟨hform, hmember⟩ (hsize size hmember)
  | scalar kind hform => apply Form.scalar kind hform
  | m256i hform => apply Form.m256i hform
  | bytes hform hmember hsize =>
      apply Form.bytes hform hmember
      apply hlength _ ⟨.inl hform, hmember⟩ hsize
  | array hform hmember hsize hitem h =>
      apply Form.array hform hmember _ hitem
      · apply hdescribes _ (.item hform hitem) h
      · apply hlength _ ⟨.inr hform, hmember⟩ hsize
  | struct hform hfields h =>
      apply Form.struct hform hfields
      intro field hfield
      apply (h field hfield).imp
      intro type htype
      apply hdescribes type (.field hform hfields hfield htype)

theorem part (h : Form isLength isExpectedSize describes v) (hpart : Part v w) :
  describes w
  := by
  cases hpart with
  | item hform hitem =>
      cases h with
      | array _ _ _ hitem' h =>
          rw [hitem] at hitem'
          obtain rfl := Option.some.inj hitem'
          exact h
      | nodata hform' | scalar _ hform' | m256i hform' | bytes hform' | struct hform' =>
          cases hform.unique hform'
  | field hform hfields hfield htype =>
      cases h with
      | struct _ hfields' h =>
          rw [hfields] at hfields'
          obtain rfl := Json.arr.inj (Option.some.inj hfields')
          obtain ⟨name, type, _, _, htype', hdescribed⟩ := h _ hfield
          rw [htype] at htype'
          obtain rfl := Option.some.inj htype'
          exact hdescribed
      | nodata hform' | scalar _ hform' | m256i hform' | bytes hform' | array hform' =>
          cases hform.unique hform'

theorem length (h : Form isLength isExpectedSize describes v) (hsize : HasLength v size) :
  isLength size
  := by
  obtain ⟨hform, hmember⟩ := hsize
  cases h with
  | bytes _ hmember' h | array _ hmember' h =>
      rw [hmember] at hmember'
      obtain rfl := Option.some.inj hmember'
      exact h
  | nodata hform' | scalar _ hform' | m256i hform' | struct hform' =>
      rcases hform with hform | hform
      · cases hform.unique hform'
      · cases hform.unique hform'

theorem expectedSize (h : Form isLength isExpectedSize describes v)
    (hsize : HasExpectedSize v size) :
  isExpectedSize size
  := by
  obtain ⟨hform, hmember⟩ := hsize
  cases h with
  | nodata _ h => apply h size hmember
  | scalar _ hform' | m256i hform' | bytes hform' | array hform' | struct hform' =>
      cases hform.unique hform'

end Form

/-! ### Checkers -/

/-- A way to accept values that follows the forms of descriptions.  It may be told where a value
stands, although this makes no difference. -/
structure Checker (π : Type) where
  accepts : π → Json → Prop
  isLength : Json → Prop
  isExpectedSize : Json → Prop
  form : ∀ {place : π} {v : Json}, accepts place v →
    Form isLength isExpectedSize (fun w => ∃ place, accepts place w) v
  of_form : ∀ {v : Json}, Form isLength isExpectedSize (fun w => ∀ place, accepts place w) v →
    ∀ place, accepts place v

namespace Checker

variable {π π' : Type} (C : Checker π) (C' : Checker π') {place : π} {v w size : Json}

/-- The descriptions in a value that is accepted are accepted. -/
theorem accepts_of_visits (h : C.accepts place v) (hvisits : Visits v w) :
  ∃ place, C.accepts place w
  := by
  induction hvisits with
  | refl => exact ⟨place, h⟩
  | tail _ hpart ih =>
      obtain ⟨place', h'⟩ := ih
      apply (C.form h').part hpart

theorem isLength_of_visits (h : C.accepts place v) (hvisits : Visits v w)
    (hsize : HasLength w size) :
  C.isLength size
  := by
  obtain ⟨place', h'⟩ := C.accepts_of_visits h hvisits
  apply (C.form h').length hsize

theorem isExpectedSize_of_visits (h : C.accepts place v) (hvisits : Visits v w)
    (hsize : HasExpectedSize w size) :
  C.isExpectedSize size
  := by
  obtain ⟨place', h'⟩ := C.accepts_of_visits h hvisits
  apply (C.form h').expectedSize hsize

/-- What one checker accepts is accepted by another one that takes the sizes in it for sizes. -/
theorem transfer (h : C.accepts place v)
    (hlength : ∀ w size, Visits v w → HasLength w size → C.isLength size → C'.isLength size)
    (hexpected : ∀ w size, Visits v w → HasExpectedSize w size → C.isExpectedSize size →
      C'.isExpectedSize size) (place' : π') :
  C'.accepts place' v
  := by
  -- by induction on the size of the value, since its parts are smaller
  induction hn : sizeOf v using Nat.strongRecOn generalizing v place place' with
  | ind n ih =>
      apply C'.of_form
      apply (C.form h).imp (hlength v · .refl) (hexpected v · .refl)
      rintro w hpart ⟨place'', hw⟩ place'''
      have hlt : sizeOf w < n := by
        rw [← hn]
        apply hpart.sizeOf_lt
      apply ih (sizeOf w) hlt hw _ _ place''' rfl
      · intro u size hvisits
        apply hlength u size (hvisits.head hpart)
      · intro u size hvisits
        apply hexpected u size (hvisits.head hpart)

end Checker

end TypeDesc

end ContractInterface
