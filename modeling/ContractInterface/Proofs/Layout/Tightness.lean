import ContractInterface.Proofs.Layout.Placement
import Mathlib.Algebra.Ring.Int.Defs
import Mathlib.Data.List.Forall2
import Mathlib.Order.Bounds.Basic

/-!
# Tight placement of fields

The fields of a struct can lie at any offsets that are multiples of their alignments and keep the
fields apart in the order of declaration (`Legal`).  The offsets at which the fields are placed
are legal (`legal_place`), and each of them is the smallest that any legal offsets give its field
(`place_least`).  The enclosing layout is tight as well: its alignment is the largest that a field
asks for, and its size is the least multiple of it that holds all fields.

The padding of a struct is reckoned as the difference between its size and the bytes of its
fields.  Along the placed fields this difference is the sum of the gaps, the one behind the last
field included, and no gap is negative.
-/

namespace ContractInterface

theorem alignUp_le {value align n : Nat} (halign : 0 < align) (hdvd : align ∣ n)
    (hle : value ≤ n) :
  alignUp value align ≤ n
  := by
  unfold alignUp
  split
  · exact hle
  · obtain ⟨k, rfl⟩ := hdvd
    have hquotient : (value + align - 1) / align < k + 1 := by
      apply (Nat.div_lt_iff_lt_mul halign).mpr
      rw [Nat.add_mul, Nat.one_mul, Nat.mul_comm k]
      omega
    rw [Nat.mul_comm align]
    apply Nat.mul_le_mul_right
    omega

/-- Rounding up gives the least multiple of an alignment that is not below a value. -/
theorem isLeast_alignUp (value : Nat) {align : Nat} (h : 0 < align) :
  IsLeast {n | align ∣ n ∧ value ≤ n} (alignUp value align)
  := by
  use ⟨dvd_alignUp value h, le_alignUp value h⟩
  rintro n ⟨hdvd, hle⟩
  apply alignUp_le h hdvd hle

namespace Placement

variable {ν : Type}

/-! ### Legal offsets -/

/-- Offsets at which fields can lie, in the order of declaration: each is a multiple of the
alignment of its field, and no field begins before all fields declared earlier have ended. -/
structure Legal (fields : List (ν × Layout)) (offsets : List Nat) : Prop where
  aligned : List.Forall₂ (fun field offset => field.2.align ∣ offset) fields offsets
  apart : (fields.zip offsets).Pairwise fun earlier later =>
    earlier.2 + earlier.1.2.size ≤ later.2

/-- What is placed are the fields, in the order of declaration. -/
theorem map_placeFrom (offset : Nat) (fields : List (ν × Layout)) :
  (placeFrom offset fields).map (fun p => (p.name, Layout.mk p.size p.align)) = fields
  := by
  induction fields generalizing offset with
  | nil => rfl
  | cons field fields ih => rw [placeFrom, List.map_cons, ih]

theorem le_offset_of_mem_placeFrom {offset : Nat} {fields : List (ν × Layout)}
    (h : ∀ field ∈ fields, 0 < field.2.align) {p : Placement ν} (hp : p ∈ placeFrom offset fields) :
  offset ≤ p.offset
  := by
  induction fields generalizing offset with
  | nil => contradiction
  | cons field fields ih =>
      have hstart := le_alignUp offset (h field List.mem_cons_self)
      rcases List.mem_cons.mp hp with rfl | hp
      · exact hstart
      · calc
          offset ≤ alignUp offset field.2.align := hstart
          _ ≤ alignUp offset field.2.align + field.2.size := Nat.le_add_right _ _
          _ ≤ p.offset := ih (fun f hf => h f (List.mem_cons_of_mem field hf)) hp

theorem legal_placeFrom (offset : Nat) {fields : List (ν × Layout)}
    (h : ∀ field ∈ fields, 0 < field.2.align) :
  Legal fields ((placeFrom offset fields).map Placement.offset)
  := by
  induction fields generalizing offset with
  | nil => exact ⟨.nil, .nil⟩
  | cons field fields ih =>
      have hfields := fun f hf => h f (List.mem_cons_of_mem field hf)
      obtain ⟨haligned, hapart⟩ := ih (alignUp offset field.2.align + field.2.size) hfields
      constructor
      · apply List.Forall₂.cons _ haligned
        apply dvd_alignUp offset (h field List.mem_cons_self)
      · apply List.Pairwise.cons _ hapart
        intro later hlater
        obtain ⟨p, hp, hoffset⟩ := List.mem_map.mp (List.of_mem_zip hlater).2
        rw [← hoffset]
        apply le_offset_of_mem_placeFrom hfields hp

/-- Offsets that are legal and not below the offset from which fields are placed are not below the
offsets of the placed fields. -/
theorem placeFrom_least {start : Nat} {fields : List (ν × Layout)}
    (h : ∀ field ∈ fields, 0 < field.2.align) {offsets : List Nat} (hlegal : Legal fields offsets)
    (hstart : ∀ offset ∈ offsets, start ≤ offset) :
  List.Forall₂ (· ≤ ·) ((placeFrom start fields).map Placement.offset) offsets
  := by
  induction fields generalizing start offsets with
  | nil =>
      obtain ⟨haligned, -⟩ := hlegal
      cases haligned
      exact .nil
  | cons field fields ih =>
      obtain ⟨haligned, hapart⟩ := hlegal
      cases haligned with
      | @cons _ offset _ offsets hdvd haligned =>
          obtain ⟨hfirst, hapart⟩ := List.pairwise_cons.mp hapart
          have hle : alignUp start field.2.align ≤ offset :=
            alignUp_le (h field List.mem_cons_self) hdvd (hstart offset List.mem_cons_self)
          apply List.Forall₂.cons hle
          apply ih (fun f hf => h f (List.mem_cons_of_mem field hf)) ⟨haligned, hapart⟩
          -- the later offsets are not below the end of the first field, wherever that lies
          intro later hlater
          have hzip : (fields.zip offsets).map Prod.snd = offsets :=
            List.map_snd_zip haligned.length_eq.ge
          rw [← hzip] at hlater
          obtain ⟨placed, hplaced, rfl⟩ := List.mem_map.mp hlater
          calc
            alignUp start field.2.align + field.2.size ≤ offset + field.2.size := by
              apply Nat.add_le_add_right hle
            _ ≤ placed.2 := hfirst placed hplaced

theorem legal_place {fields : List (ν × Layout)} (h : ∀ field ∈ fields, 0 < field.2.align) :
  Legal fields ((place fields).map Placement.offset)
  := legal_placeFrom 0 h

/-- No legal offsets give any field a smaller offset than the one at which it is placed. -/
theorem place_least {fields : List (ν × Layout)} (h : ∀ field ∈ fields, 0 < field.2.align)
    {offsets : List Nat} (hlegal : Legal fields offsets) :
  List.Forall₂ (· ≤ ·) ((place fields).map Placement.offset) offsets
  := by
  apply placeFrom_least h hlegal
  intro offset _
  apply Nat.zero_le

/-! ### The enclosing layout -/

theorem foldl_max_mem (n : Nat) (placements : List (Placement ν)) :
  placements.foldl (fun align p => max align p.align) n = n ∨
    ∃ p ∈ placements, placements.foldl (fun align p => max align p.align) n = p.align
  := by
  induction placements generalizing n with
  | nil => exact .inl rfl
  | cons p placements ih =>
      rw [List.foldl_cons]
      rcases ih (max n p.align) with hmax | ⟨q, hq, hmax⟩
      · rw [hmax]
        rcases max_choice n p.align with h | h
        · exact .inl h
        · exact .inr ⟨p, List.mem_cons_self, h⟩
      · exact .inr ⟨q, List.mem_cons_of_mem p hq, hmax⟩

/-- The alignment of a struct with fields is the largest alignment of a field. -/
theorem isGreatest_maxAlign {placements : List (Placement ν)} (hne : placements ≠ [])
    (h : ∀ p ∈ placements, 0 < p.align) :
  IsGreatest {align | ∃ p ∈ placements, p.align = align} (maxAlign placements)
  := by
  constructor
  · rcases foldl_max_mem 1 placements with hmax | ⟨p, hp, hmax⟩
    · obtain ⟨p, hp⟩ := List.exists_mem_of_ne_nil placements hne
      have hpos := h p hp
      have hle := align_le_maxAlign hp
      rw [maxAlign, hmax] at hle
      rw [maxAlign, hmax]
      exact ⟨p, hp, by omega⟩
    · exact ⟨p, hp, hmax.symm⟩
  · rintro align ⟨p, hp, rfl⟩
    apply align_le_maxAlign hp

/-! ### Padding -/

/-- The bytes that lie free in front of each placed field, from a given offset on. -/
def gapsFrom : Nat → List (Placement ν) → List Int
  | _, [] => []
  | stop, p :: placements => (p.offset - stop : Int) :: gapsFrom p.stop placements

/-- The bytes that lie free in front of each placed field. -/
def gaps (placements : List (Placement ν)) : List Int :=
  gapsFrom 0 placements

/-- The bytes that lie free behind the last field. -/
def tailGap (placements : List (Placement ν)) : Int :=
  (enclose placements).size - finish placements

theorem dataBytes_eq_sum (placements : List (Placement ν)) :
  dataBytes placements = (placements.map size).sum
  := by
  rw [dataBytes, List.sum_eq_foldl, List.foldl_map]

/-- The gaps and the fields fill the space up to the end of the last field. -/
theorem sum_gapsFrom (start : Nat) (placements : List (Placement ν)) :
  (gapsFrom start placements).sum + ((placements.map size).sum : Nat) =
    ((placements.getLast?.map stop).getD start : Nat) - (start : Int)
  := by
  induction placements generalizing start with
  | nil => simp [gapsFrom]
  | cons p placements ih =>
      have hrest := ih p.stop
      rw [gapsFrom, List.sum_cons, List.map_cons, List.sum_cons, stop_getLast?_cons]
      unfold stop at hrest ⊢
      push_cast at hrest ⊢
      omega

theorem padding_eq_sum_gaps {placements : List (Placement ν)} (h : placements ≠ []) :
  padding placements = (gaps placements).sum + tailGap placements
  := by
  have hsum := sum_gapsFrom 0 placements
  rw [← dataBytes_eq_sum] at hsum
  change _ = (finish placements : Int) - (0 : Nat) at hsum
  rw [padding, if_neg (by simpa using h), gaps, tailGap]
  omega

theorem gapsFrom_nonneg {offset : Nat} {fields : List (ν × Layout)}
    (h : ∀ field ∈ fields, 0 < field.2.align) :
  ∀ gap ∈ gapsFrom offset (placeFrom offset fields), 0 ≤ gap
  := by
  induction fields generalizing offset with
  | nil => simp [placeFrom, gapsFrom]
  | cons field fields ih =>
      have hstart := le_alignUp offset (h field List.mem_cons_self)
      intro gap hgap
      rcases List.mem_cons.mp hgap with rfl | hgap
      · simpa using hstart
      · apply ih (fun f hf => h f (List.mem_cons_of_mem field hf)) gap hgap

theorem tailGap_nonneg (placements : List (Placement ν)) :
  0 ≤ tailGap placements
  := by
  have h := finish_le_enclose_size placements
  unfold tailGap
  omega

/-- The padding is reported if it and the number of bytes of data can be written. -/
theorem reportPadding_eq {placements : List (Placement ν)} (h : placements ≠ []) :
  reportPadding placements =
    if Numeral.isWritable (dataBytes placements) ∧ Numeral.isWritable (padding placements) then
      .ok (padding placements)
    else .error .unwritable
  := by
  have hfull : placements.isEmpty = false := by simpa using h
  simp only [reportPadding, hfull, Bool.false_eq_true, if_false, Numeral.requireWritable]
  by_cases hdata : Numeral.isWritable (dataBytes placements)
  · by_cases hpadding : Numeral.isWritable (padding placements)
    · rw [if_pos hdata, if_pos hpadding, if_pos ⟨hdata, hpadding⟩]
      rfl
    · rw [if_pos hdata, if_neg hpadding, if_neg (fun h => hpadding h.2)]
      rfl
  · have hboth : ¬(Numeral.isWritable (dataBytes placements) ∧
        Numeral.isWritable (padding placements)) := fun h => hdata h.1
    rw [if_neg hdata, if_neg hboth]
    rfl

end Placement

namespace TypeDesc

open Placement (Legal gaps tailGap finish reportPadding)

/-! ### The layout of a struct -/

theorem map_placements (fields : List (JsonString × TypeDesc)) :
  (placements fields).map (fun p => (p.name, Layout.mk p.size p.align)) =
    fields.map (Prod.map id layout)
  := by
  rw [← fieldLayouts_eq_map]
  apply Placement.map_placeFrom

/-- The placed fields have the sizes and alignments of the fields. -/
theorem map_layout_placements {α : Type} (f : Layout → α) (fields : List (JsonString × TypeDesc)) :
  (placements fields).map (fun p => f ⟨p.size, p.align⟩) = fields.map fun field => f field.2.layout
  := by
  have h := congrArg (List.map fun field => f field.2) (map_placements fields)
  rw [List.map_map, List.map_map] at h
  exact h

theorem placements_ne_nil {fields : List (JsonString × TypeDesc)} (h : fields ≠ []) :
  placements fields ≠ []
  := by
  intro hnil
  have hmap := map_layout_placements id fields
  rw [hnil] at hmap
  exact h (List.map_eq_nil_iff.mp hmap.symm)

theorem isGreatest_align {fields : List (JsonString × TypeDesc)} (h : fields ≠ []) :
  IsGreatest {align | ∃ field ∈ fields, field.2.align = align} (struct fields).align
  := by
  have hset : {align | ∃ field ∈ fields, field.2.align = align} =
      {align | ∃ p ∈ placements fields, p.align = align} := by
    have halign : (placements fields).map Placement.align = fields.map fun field => field.2.align :=
      map_layout_placements Layout.align fields
    ext align
    change (∃ field ∈ fields, field.2.align = align) ↔ ∃ p ∈ placements fields, p.align = align
    rw [← List.mem_map, ← List.mem_map, halign]
  rw [hset]
  apply Placement.isGreatest_maxAlign (placements_ne_nil h)
  intro p hp
  obtain ⟨field, hfield, halign⟩ := Placement.exists_align_of_mem_placeFrom hp
  rw [halign]
  apply fieldLayouts_align_pos fields field hfield

/-- The layout of a struct is the tightest legal one.  All fields are placed, at legal offsets,
and no legal offsets give any field a smaller one; the alignment is the largest of a field, and 1
if there are no fields; the size is the least multiple of the alignment that is not below the end
of the last field, and 1 if that is 0.  The padding that is reported for a struct with fields is
the sum of the gaps before the fields and behind the last one, none of which is negative; there is
no report if it or the number of bytes of data has more digits than are written. -/
theorem placements_tightest (fields : List (JsonString × TypeDesc)) :
  let placed := placements fields
  let type := struct fields
  (placed.map fun p => (p.name, Layout.mk p.size p.align)) = fields.map (Prod.map id layout) ∧
  Legal (fieldLayouts fields) (placed.map Placement.offset) ∧
  (∀ offsets, Legal (fieldLayouts fields) offsets →
    List.Forall₂ (· ≤ ·) (placed.map Placement.offset) offsets) ∧
  (fields = [] → type.align = 1) ∧
  (fields ≠ [] → IsGreatest {align | ∃ field ∈ fields, field.2.align = align} type.align) ∧
  (∃ n, IsLeast {n | type.align ∣ n ∧ finish placed ≤ n} n ∧
    type.size = if n = 0 then 1 else n) ∧
  (fields ≠ [] →
    (∀ gap ∈ gaps placed, 0 ≤ gap) ∧ 0 ≤ tailGap placed ∧
    reportPadding placed =
      if Numeral.isWritable ((fields.map fun field => field.2.size).sum : Nat) ∧
          Numeral.isWritable ((gaps placed).sum + tailGap placed) then
        .ok ((gaps placed).sum + tailGap placed)
      else .error .unwritable)
  := by
  intro placed type
  have hpos := fieldLayouts_align_pos fields
  refine ⟨map_placements fields, Placement.legal_place hpos,
    fun _ => Placement.place_least hpos, ?_, isGreatest_align, ?_, ?_⟩
  · rintro rfl
    rfl
  · exact ⟨_, isLeast_alignUp (finish placed) (Placement.one_le_maxAlign placed), rfl⟩
  · intro hne
    have hplaced := placements_ne_nil hne
    have hsize : placed.map Placement.size = fields.map fun field => field.2.size :=
      map_layout_placements Layout.size fields
    refine ⟨Placement.gapsFrom_nonneg hpos, Placement.tailGap_nonneg placed, ?_⟩
    rw [Placement.reportPadding_eq hplaced, Placement.padding_eq_sum_gaps hplaced,
      Placement.dataBytes_eq_sum, hsize]

example :
  let placed := placements [("flag", .u8), ("none", .array 0 .u16), ("total", .u64), ("kind", .u16)]
  placed.map Placement.offset = [0, 2, 8, 16] ∧ gaps placed = [0, 1, 6, 0] ∧ tailGap placed = 6
  := by
  decide

/-- A field with more bytes than can be written: its struct has no padding, but none is
reported. -/
theorem reportPadding_unwritable :
  let fields : List (JsonString × TypeDesc) := [("data", array (10 ^ 2200) (bytes (10 ^ 2200)))]
  fields ≠ [] ∧ gaps (placements fields) = [0] ∧ tailGap (placements fields) = 0 ∧
  reportPadding (placements fields) = .error .unwritable
  := by
  decide +kernel

end TypeDesc

end ContractInterface
