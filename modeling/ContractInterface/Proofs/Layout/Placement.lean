import ContractInterface.TypeDesc.Layout
import Mathlib.Data.Nat.Prime.Basic
import Mathlib.Algebra.Order.Group.Nat

/-!
# Placement of fields

Rounding up to an alignment gives a multiple of it that is not below the rounded value.  From
this it follows where the placed fields of a struct can lie, and how the layout that encloses
them relates to their alignments and to their end.  The alignments that occur are the divisors
of 8, so of two of them the smaller divides the larger.
-/

namespace ContractInterface

/-! ### Rounding up -/

theorem le_alignUp (value : Nat) {align : Nat} (h : 0 < align) :
  value ≤ alignUp value align
  := by
  have hround := Nat.lt_div_mul_add (a := value + align - 1) h
  unfold alignUp
  split <;> omega

theorem dvd_alignUp (value : Nat) {align : Nat} (h : 0 < align) :
  align ∣ alignUp value align
  := by
  unfold alignUp
  split
  · obtain rfl : align = 1 := by omega
    apply one_dvd
  · apply Nat.dvd_mul_left

/-- Of two divisors of 8 the smaller divides the larger. -/
theorem dvd_of_le_of_dvd_eight {a b : Nat} (ha : a ∣ 8) (hb : b ∣ 8) (h : a ≤ b) :
  a ∣ b
  := by
  obtain ⟨i, -, rfl⟩ := (Nat.dvd_prime_pow (m := 3) Nat.prime_two).mp ha
  obtain ⟨j, -, rfl⟩ := (Nat.dvd_prime_pow (m := 3) Nat.prime_two).mp hb
  apply Nat.pow_dvd_pow
  apply (Nat.pow_le_pow_iff_right (by decide)).mp h

namespace Placement

variable {ν : Type}

/-! ### The end of the placed fields -/

/-- The first byte after fields that are placed one after another from an offset on. -/
def endFrom : Nat → List (ν × Layout) → Nat
  | offset, [] => offset
  | offset, (_, layout) :: fields => endFrom (alignUp offset layout.align + layout.size) fields

theorem stop_getLast?_cons (p : Placement ν) (placements : List (Placement ν)) (offset : Nat) :
  ((p :: placements).getLast?.map stop).getD offset = (placements.getLast?.map stop).getD p.stop
  := by
  rw [List.getLast?_cons]
  cases placements.getLast? with
  | none => rfl
  | some q => rfl

theorem stop_getLast?_placeFrom (offset : Nat) (fields : List (ν × Layout)) :
  ((placeFrom offset fields).getLast?.map stop).getD offset = endFrom offset fields
  := by
  induction fields generalizing offset with
  | nil => rfl
  | cons field fields ih =>
      rw [endFrom, ← ih, placeFrom, stop_getLast?_cons]
      rfl

theorem finish_place (fields : List (ν × Layout)) :
  finish (place fields) = endFrom 0 fields
  := stop_getLast?_placeFrom 0 fields

theorem le_endFrom (offset : Nat) {fields : List (ν × Layout)}
    (h : ∀ field ∈ fields, 0 < field.2.align) :
  offset ≤ endFrom offset fields
  := by
  induction fields generalizing offset with
  | nil => apply le_refl
  | cons field fields ih =>
      have hfield := h field List.mem_cons_self
      have hfields := fun f hf => h f (List.mem_cons_of_mem field hf)
      calc
        offset ≤ alignUp offset field.2.align := le_alignUp offset hfield
        _ ≤ alignUp offset field.2.align + field.2.size := Nat.le_add_right _ _
        _ ≤ endFrom offset (field :: fields) := ih _ hfields

/-! ### The largest alignment -/

theorem le_foldl_max (n : Nat) (placements : List (Placement ν)) :
  n ≤ placements.foldl (fun align p => max align p.align) n
  := by
  induction placements generalizing n with
  | nil => apply le_refl
  | cons p placements ih => apply le_trans (le_max_left n p.align) (ih _)

theorem one_le_maxAlign (placements : List (Placement ν)) :
  1 ≤ maxAlign placements
  := le_foldl_max 1 placements

theorem align_le_foldl_max (n : Nat) {placements : List (Placement ν)} {p : Placement ν}
    (h : p ∈ placements) :
  p.align ≤ placements.foldl (fun align p => max align p.align) n
  := by
  induction placements generalizing n with
  | nil => contradiction
  | cons q placements ih =>
      rcases List.mem_cons.mp h with rfl | h
      · apply le_trans (le_max_right n p.align) (le_foldl_max _ placements)
      · apply ih _ h

theorem align_le_maxAlign {placements : List (Placement ν)} {p : Placement ν}
    (h : p ∈ placements) :
  p.align ≤ maxAlign placements
  := align_le_foldl_max 1 h

theorem foldl_max_dvd_eight {n : Nat} (hn : n ∣ 8) {placements : List (Placement ν)}
    (h : ∀ p ∈ placements, p.align ∣ 8) :
  placements.foldl (fun align p => max align p.align) n ∣ 8
  := by
  induction placements generalizing n with
  | nil => apply hn
  | cons p placements ih =>
      have hmax : max n p.align ∣ 8 := by
        rcases max_choice n p.align with hmax | hmax
        · rwa [hmax]
        · rw [hmax]
          apply h p List.mem_cons_self
      apply ih hmax
      intro q hq
      apply h q (List.mem_cons_of_mem p hq)

theorem maxAlign_dvd_eight {placements : List (Placement ν)}
    (h : ∀ p ∈ placements, p.align ∣ 8) :
  maxAlign placements ∣ 8
  := foldl_max_dvd_eight (one_dvd 8) h

/-- The alignment of a placed field is that of the field. -/
theorem exists_align_of_mem_placeFrom {offset : Nat} {fields : List (ν × Layout)}
    {p : Placement ν} (h : p ∈ placeFrom offset fields) :
  ∃ field ∈ fields, p.align = field.2.align
  := by
  induction fields generalizing offset with
  | nil => contradiction
  | cons field fields ih =>
      rcases List.mem_cons.mp h with rfl | h
      · use field, List.mem_cons_self
      · obtain ⟨f, hf, hp⟩ := ih h
        use f, List.mem_cons_of_mem field hf

/-! ### The enclosing layout -/

theorem one_le_enclose_size (placements : List (Placement ν)) :
  1 ≤ (enclose placements).size
  := by
  simp only [enclose]
  split <;> omega

theorem finish_le_enclose_size (placements : List (Placement ν)) :
  finish placements ≤ (enclose placements).size
  := by
  have h := le_alignUp (finish placements) (one_le_maxAlign placements)
  simp only [enclose]
  split <;> omega

/-- The enclosing size is a multiple of the alignment, unless no field takes up space. -/
theorem align_dvd_enclose_size (placements : List (Placement ν)) (h : finish placements ≠ 0) :
  (enclose placements).align ∣ (enclose placements).size
  := by
  have hle := le_alignUp (finish placements) (one_le_maxAlign placements)
  simp only [enclose]
  rw [if_neg (by omega)]
  apply dvd_alignUp _ (one_le_maxAlign placements)

end Placement

namespace TypeDesc

/-! ### Layouts of types -/

theorem fieldLayouts_eq_map (fields : List (JsonString × TypeDesc)) :
  fieldLayouts fields = fields.map (Prod.map id layout)
  := by
  induction fields with
  | nil => rfl
  | cons field fields ih =>
      rw [fieldLayouts, List.map_cons, ih]
      rfl

theorem width_dvd_eight (kind : Scalar) :
  kind.width ∣ 8
  := by
  cases kind <;> decide

mutual

/-- The alignments that occur are 1, 2, 4 and 8. -/
theorem align_dvd_eight : (type : TypeDesc) → type.align ∣ 8
  | .nodata _ => one_dvd 8
  | .scalar kind => width_dvd_eight kind
  | .bytes _ => one_dvd 8
  | .m256i => dvd_refl 8
  | .array _ item => align_dvd_eight item
  | .struct fields => by
      apply Placement.maxAlign_dvd_eight
      intro p hp
      obtain ⟨field, hfield, hp⟩ := Placement.exists_align_of_mem_placeFrom hp
      rw [hp]
      apply fieldLayouts_align_dvd_eight fields field hfield

theorem fieldLayouts_align_dvd_eight :
  (fields : List (JsonString × TypeDesc)) →
    ∀ field ∈ fieldLayouts fields, field.2.align ∣ 8
  | [], _, h => by contradiction
  | (_, type) :: fields, field, h => by
      rcases List.mem_cons.mp h with rfl | h
      · apply align_dvd_eight type
      · apply fieldLayouts_align_dvd_eight fields field h

end

theorem align_pos (type : TypeDesc) :
  0 < type.align
  := Nat.pos_of_dvd_of_pos type.align_dvd_eight (by decide)

theorem fieldLayouts_align_pos (fields : List (JsonString × TypeDesc)) :
  ∀ field ∈ fieldLayouts fields, 0 < field.2.align
  := by
  intro field hfield
  apply Nat.pos_of_dvd_of_pos (fieldLayouts_align_dvd_eight fields field hfield) (by decide)

theorem one_le_struct_size (fields : List (JsonString × TypeDesc)) :
  1 ≤ (struct fields).size
  := Placement.one_le_enclose_size _

end TypeDesc

end ContractInterface
