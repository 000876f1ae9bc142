import ContractInterface.Proofs.Layout.Placement

/-!
# Strides of arrays

The items of an array follow each other at the distance of their size, so they are all aligned if
the size of an item is a multiple of its alignment.  A struct with content is padded to such a
size.  A struct whose fields take up no space is not: it keeps the largest alignment of a field
but occupies one byte (`Vacant`).  Its arrays inherit this, up to the lengths that make up for it.
-/

namespace ContractInterface

theorem alignUp_zero (align : Nat) :
  alignUp 0 align = 0
  := by
  unfold alignUp
  split
  · rfl
  · rw [Nat.zero_add, Nat.div_eq_of_lt (by omega), Nat.zero_mul]

/-- Fields end where they begin exactly if none of them takes up space. -/
theorem Placement.finish_place_eq_zero_iff {ν : Type} {fields : List (ν × Layout)}
    (h : ∀ field ∈ fields, 0 < field.2.align) :
  finish (place fields) = 0 ↔ ∀ field ∈ fields, field.2.size = 0
  := by
  rw [finish_place]
  induction fields with
  | nil => simp [endFrom]
  | cons field fields ih =>
      have hfields := fun f hf => h f (List.mem_cons_of_mem field hf)
      rw [endFrom, alignUp_zero, Nat.zero_add, List.forall_mem_cons]
      constructor
      · intro hend
        have hle := le_endFrom field.2.size hfields
        obtain hsize : field.2.size = 0 := by omega
        rw [hsize] at hend
        exact ⟨hsize, (ih hfields).mp hend⟩
      · rintro ⟨hsize, hrest⟩
        rw [hsize]
        apply (ih hfields).mpr hrest

namespace TypeDesc

/-- The type of the items of an array, and of their items if these are arrays again. -/
def innermost : TypeDesc → TypeDesc
  | .array _ item => innermost item
  | type => type

/-- The number of innermost items. -/
def count : TypeDesc → Nat
  | .array length item => count item * length
  | _ => 1

/-- A struct of which no field takes up space. -/
def Vacant : TypeDesc → Prop
  | .struct fields => ∀ field ∈ fields, field.2.size = 0
  | _ => False

theorem size_eq_innermost_mul_count : (type : TypeDesc) →
  type.size = type.innermost.size * type.count
  | .array length item => by
      have hitem := size_eq_innermost_mul_count item
      change item.size * length = item.innermost.size * (item.count * length)
      rw [hitem, Nat.mul_assoc]
  | .nodata _ | .scalar _ | .bytes _ | .m256i | .struct _ => (Nat.mul_one _).symm

theorem finish_placements_eq_zero_iff {fields : List (JsonString × TypeDesc)} :
  Placement.finish (placements fields) = 0 ↔ Vacant (.struct fields)
  := by
  rw [placements, Placement.finish_place_eq_zero_iff (fieldLayouts_align_pos fields),
    fieldLayouts_eq_map, List.forall_mem_map]
  rfl

/-- A struct without content occupies one byte. -/
theorem Vacant.size_eq_one {type : TypeDesc} (h : type.Vacant) :
  type.size = 1
  := by
  cases type with
  | struct fields =>
      change (Placement.enclose (placements fields)).size = 1
      rw [Placement.enclose, finish_placements_eq_zero_iff.mpr h, alignUp_zero]
      rfl
  | nodata _ | scalar _ | bytes _ | m256i | array _ _ => exact h.elim

/-- Innermost items with content have a size that is a multiple of their alignment. -/
theorem align_dvd_size_innermost : (type : TypeDesc) → ¬type.innermost.Vacant →
  type.align ∣ type.innermost.size
  | .array _ item, h => align_dvd_size_innermost item h
  | .struct fields, h => by
      apply Placement.align_dvd_enclose_size
      intro hfinish
      exact h (finish_placements_eq_zero_iff.mp hfinish)
  | .nodata _, _ => one_dvd _
  | .scalar _, _ => dvd_refl _
  | .bytes _, _ => one_dvd _
  | .m256i, _ => by decide

/-- The size of a type is a multiple of its alignment exactly if it is not made of structs without
content, or of so many of them that their bytes make up a multiple.  It is the same to say that
the items of an array of this type are all aligned, wherever the array is. -/
theorem align_dvd_size_iff (type : TypeDesc) :
  (type.align ∣ type.size ↔ (type.innermost.Vacant → type.align ∣ type.count)) ∧
  ∀ base, type.align ∣ base →
    ((∀ i, type.align ∣ base + i * type.size) ↔ type.align ∣ type.size)
  := by
  constructor
  · rw [size_eq_innermost_mul_count type]
    by_cases h : type.innermost.Vacant
    · rw [h.size_eq_one, Nat.one_mul]
      exact ⟨fun hcount _ => hcount, fun hcount => hcount h⟩
    · have hsize := align_dvd_size_innermost type h
      exact ⟨fun _ hvacant => absurd hvacant h, fun _ => hsize.mul_right _⟩
  · intro base hbase
    constructor
    · intro hitems
      have hsecond := hitems 1
      rw [Nat.one_mul] at hsecond
      apply (Nat.dvd_add_right hbase).mp hsecond
    · intro hsize i
      apply Nat.dvd_add hbase
      apply hsize.mul_left

/-- A struct with nothing but an array of length zero is aligned like the items of that array but
occupies one byte, so the second item of an array of such structs is not aligned. -/
theorem not_align_dvd_size_vacant :
  let type := struct [("gap", .array 0 .u64)]
  type.align = 8 ∧ type.size = 1 ∧ ¬type.align ∣ type.size ∧ ¬type.align ∣ 0 + 1 * type.size
  := by
  decide

end TypeDesc

end ContractInterface
