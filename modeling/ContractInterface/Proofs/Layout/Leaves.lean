import ContractInterface.Proofs.Layout.Placement

/-!
# Leaves of a type in memory

The leaves of a type are the parts of it that have no parts themselves: scalars, identifiers,
runs of bytes and sides without data.  `leaves base type` lists them with the addresses at which
they lie when the type starts at `base`, following the placements of fields and the sizes of
items.

Wherever a type starts, its leaves follow each other without overlap inside the size of the type
(`leaves_spread`).  They are aligned as soon as the type is (`leaves_aligned`).  The size of a
type need not be a multiple of its alignment, since a struct whose fields take up no space still
occupies a byte; but then none of its leaves takes up space either, and such leaves lie well
everywhere.
-/

namespace ContractInterface

/-- A part of a type without parts of its own, at an address. -/
structure Leaf where
  address : Nat
  type : TypeDesc
  deriving DecidableEq, Repr

namespace Leaf

/-- The size of a leaf in bytes. -/
def size (l : Leaf) : Nat := l.type.size

/-- The alignment of a leaf in bytes. -/
def align (l : Leaf) : Nat := l.type.align

/-- The first byte after a leaf. -/
def stop (l : Leaf) : Nat := l.address + l.size

end Leaf

namespace TypeDesc

mutual

/-- The leaves of a type that starts at an address, in the order of declaration. -/
def leaves : Nat → TypeDesc → List Leaf
  | base, .array length item =>
    (List.range length).flatMap fun i => leaves (base + i * item.size) item
  | base, .struct fields => fieldLeaves base fields (placements fields)
  | base, .nodata expectedSize => [⟨base, .nodata expectedSize⟩]
  | base, .scalar kind => [⟨base, .scalar kind⟩]
  | base, .bytes length => [⟨base, .bytes length⟩]
  | base, .m256i => [⟨base, .m256i⟩]

/-- The leaves of placed fields of a struct that starts at an address. -/
def fieldLeaves : Nat → List (JsonString × TypeDesc) → List (Placement JsonString) → List Leaf
  | base, (_, type) :: fields, p :: placed =>
    leaves (base + p.offset) type ++ fieldLeaves base fields placed
  | _, _, _ => []

end

end TypeDesc

/-! ### Leaves in order inside bounds -/

/-- The leaves follow each other without overlap between two addresses. -/
structure Leaf.Spread (low high : Nat) (ls : List Leaf) : Prop where
  ordered : ls.Pairwise fun a b => a.stop ≤ b.address
  inside : ∀ l ∈ ls, low ≤ l.address ∧ l.stop ≤ high

namespace Leaf.Spread

variable {low middle high : Nat} {ls ms : List Leaf}

theorem nil : Spread low high []
  where
  ordered := List.Pairwise.nil
  inside := by
    intro l hl
    contradiction

theorem single (base : Nat) (type : TypeDesc) : Spread base (base + type.size) [⟨base, type⟩]
  where
  ordered := List.pairwise_singleton _ _
  inside := by
    intro l hl
    obtain rfl := List.mem_singleton.mp hl
    exact ⟨le_refl _, le_refl _⟩

theorem append (hls : Spread low middle ls) (hms : Spread middle high ms)
    (hlow : low ≤ middle) (hhigh : middle ≤ high) :
  Spread low high (ls ++ ms)
  where
  ordered := by
    apply List.pairwise_append.mpr
    use hls.ordered, hms.ordered
    intro a ha b hb
    apply le_trans (hls.inside a ha).2 (hms.inside b hb).1
  inside := by
    intro l hl
    rcases List.mem_append.mp hl with hl | hl
    · obtain ⟨hstart, hstop⟩ := hls.inside l hl
      exact ⟨hstart, le_trans hstop hhigh⟩
    · obtain ⟨hstart, hstop⟩ := hms.inside l hl
      exact ⟨le_trans hlow hstart, hstop⟩

theorem widen {low' high' : Nat} (h : Spread low high ls) (hlow : low' ≤ low)
    (hhigh : high ≤ high') :
  Spread low' high' ls
  where
  ordered := h.ordered
  inside := by
    intro l hl
    obtain ⟨hstart, hstop⟩ := h.inside l hl
    exact ⟨le_trans hlow hstart, le_trans hstop hhigh⟩

/-- Between two equal addresses there is no space. -/
theorem size_eq_zero {l : Leaf} (h : Spread low low ls) (hl : l ∈ ls) :
  l.size = 0
  := by
  obtain ⟨hstart, hstop⟩ := h.inside l hl
  unfold stop at hstop
  omega

/-- Equal parts that follow each other. -/
theorem repeated {size : Nat} (part : Nat → List Leaf)
    (h : ∀ base, Spread base (base + size) (part base)) (base length : Nat) :
  Spread base (base + size * length) ((List.range length).flatMap fun i => part (base + i * size))
  := by
  induction length with
  | zero => apply nil
  | succ n ih =>
      rw [List.range_succ, List.flatMap_append, List.flatMap_singleton, Nat.mul_succ,
        ← Nat.add_assoc, Nat.mul_comm n size]
      apply append ih (h _)
      · apply Nat.le_add_right
      · apply Nat.le_add_right

end Leaf.Spread

namespace TypeDesc

open Leaf (Spread)

mutual

/-- The leaves of a type lie in order inside its size, wherever the type starts. -/
theorem leaves_spread :
  (type : TypeDesc) → (base : Nat) → Spread base (base + type.size) (leaves base type)
  | .nodata _, base => Spread.single base _
  | .scalar _, base => Spread.single base _
  | .bytes _, base => Spread.single base _
  | .m256i, base => Spread.single base _
  | .array length item, base => by
      rw [leaves]
      apply Spread.repeated fun b => leaves b item
      intro b
      apply leaves_spread item b
  | .struct fields, base => by
      have h := fieldLeaves_spread fields base 0
      rw [leaves]
      apply Spread.widen h (le_refl _)
      rw [← Placement.finish_place]
      apply Nat.add_le_add_left
      apply Placement.finish_le_enclose_size

/-- The leaves of fields that are placed from an offset on lie in order up to their end. -/
theorem fieldLeaves_spread :
  (fields : List (JsonString × TypeDesc)) → (base offset : Nat) →
    Spread (base + offset) (base + Placement.endFrom offset (fieldLayouts fields))
      (fieldLeaves base fields (Placement.placeFrom offset (fieldLayouts fields)))
  | [], _, _ => Spread.nil
  | (_, type) :: fields, base, offset => by
      have hstart := le_alignUp offset type.align_pos
      have hfirst := leaves_spread type (base + alignUp offset type.align)
      have hrest := fieldLeaves_spread fields base (alignUp offset type.align + type.size)
      have hend := Placement.le_endFrom (alignUp offset type.align + type.size)
        (fieldLayouts_align_pos fields)
      rw [Nat.add_assoc] at hfirst
      apply (hfirst.widen (Nat.add_le_add_left hstart base) (le_refl _)).append hrest
      · omega
      · apply Nat.add_le_add_left hend

end

/-! ### Leaves without size -/

mutual

/-- Only a run of no bytes is a leaf without size, and that can lie everywhere. -/
theorem leaves_align_eq_one :
  (type : TypeDesc) → (base : Nat) → ∀ l ∈ leaves base type, l.size = 0 → l.align = 1
  | .nodata _, _, _, hl, hsize => by
      obtain rfl := List.mem_singleton.mp hl
      rfl
  | .scalar kind, _, _, hl, hsize => by
      obtain rfl := List.mem_singleton.mp hl
      cases kind <;> contradiction
  | .bytes _, _, _, hl, hsize => by
      obtain rfl := List.mem_singleton.mp hl
      rfl
  | .m256i, _, _, hl, hsize => by
      obtain rfl := List.mem_singleton.mp hl
      contradiction
  | .array length item, base, l, hl, hsize => by
      rw [leaves] at hl
      obtain ⟨i, -, hl⟩ := List.mem_flatMap.mp hl
      apply leaves_align_eq_one item _ l hl hsize
  | .struct fields, base, l, hl, hsize => by
      rw [leaves] at hl
      apply fieldLeaves_align_eq_one fields base _ l hl hsize

theorem fieldLeaves_align_eq_one :
  (fields : List (JsonString × TypeDesc)) → (base : Nat) → (placed : List (Placement JsonString)) →
    ∀ l ∈ fieldLeaves base fields placed, l.size = 0 → l.align = 1
  | [], _, _, _, hl, _ => by contradiction
  | _ :: _, _, [], _, hl, _ => by contradiction
  | (_, type) :: fields, base, p :: placed, l, hl, hsize => by
      rcases List.mem_append.mp hl with hl | hl
      · apply leaves_align_eq_one type _ l hl hsize
      · apply fieldLeaves_align_eq_one fields base placed l hl hsize

end

/-- The size of a type is a multiple of its alignment, or else none of its leaves has a size. -/
theorem align_dvd_size_or :
  (type : TypeDesc) →
    type.align ∣ type.size ∨ ∀ base, ∀ l ∈ leaves base type, l.size = 0
  | .m256i => .inl (by decide)
  | .nodata _ => .inl (one_dvd _)
  | .scalar _ => .inl (dvd_refl _)
  | .bytes _ => .inl (one_dvd _)
  | .array length item => by
      rcases align_dvd_size_or item with h | h
      · left
        apply Dvd.dvd.mul_right h
      · right
        intro base l hl
        rw [leaves] at hl
        obtain ⟨i, -, hl⟩ := List.mem_flatMap.mp hl
        apply h _ l hl
  | .struct fields => by
      by_cases h : Placement.finish (placements fields) = 0
      · right
        intro base l hl
        have hspread := fieldLeaves_spread fields base 0
        rw [← Placement.finish_place] at hspread
        rw [leaves] at hl
        apply Spread.size_eq_zero (h ▸ hspread) hl
      · left
        apply Placement.align_dvd_enclose_size _ h

/-! ### Alignment of leaves -/

mutual

/-- The leaves of an aligned type are aligned. -/
theorem leaves_aligned :
  (type : TypeDesc) → (base : Nat) → type.align ∣ base →
    ∀ l ∈ leaves base type, l.align ∣ l.address
  | .nodata _, _, h, _, hl => by
      obtain rfl := List.mem_singleton.mp hl
      apply h
  | .scalar _, _, h, _, hl => by
      obtain rfl := List.mem_singleton.mp hl
      apply h
  | .bytes _, _, h, _, hl => by
      obtain rfl := List.mem_singleton.mp hl
      apply h
  | .m256i, _, h, _, hl => by
      obtain rfl := List.mem_singleton.mp hl
      apply h
  | .array length item, base, h, l, hl => by
      rw [leaves] at hl
      obtain ⟨i, -, hl⟩ := List.mem_flatMap.mp hl
      rcases align_dvd_size_or item with hsize | hempty
      · apply leaves_aligned item _ _ l hl
        apply Nat.dvd_add h
        apply Dvd.dvd.mul_left hsize
      · rw [leaves_align_eq_one item _ l hl (hempty _ l hl)]
        apply one_dvd
  | .struct fields, base, h, l, hl => by
      rw [leaves] at hl
      apply fieldLeaves_aligned fields base 0 _ l hl
      intro p hp
      obtain ⟨field, hfield, halign⟩ := Placement.exists_align_of_mem_placeFrom hp
      have hp8 : p.align ∣ 8 := by
        rw [halign]
        apply fieldLayouts_align_dvd_eight fields field hfield
      apply dvd_trans _ h
      apply dvd_of_le_of_dvd_eight hp8 (align_dvd_eight (.struct fields))
      apply Placement.align_le_maxAlign hp

/-- The leaves of placed fields are aligned if the struct starts at a multiple of every
alignment among them. -/
theorem fieldLeaves_aligned :
  (fields : List (JsonString × TypeDesc)) → (base offset : Nat) →
    (∀ p ∈ Placement.placeFrom offset (fieldLayouts fields), p.align ∣ base) →
    ∀ l ∈ fieldLeaves base fields (Placement.placeFrom offset (fieldLayouts fields)),
      l.align ∣ l.address
  | [], _, _, _, _, hl => by contradiction
  | (_, type) :: fields, base, offset, h, l, hl => by
      rcases List.mem_append.mp hl with hl | hl
      · apply leaves_aligned type _ _ l hl
        apply Nat.dvd_add
        · apply h _ List.mem_cons_self
        · apply dvd_alignUp offset type.align_pos
      · apply fieldLeaves_aligned fields base _ _ l hl
        intro p hp
        apply h p (List.mem_cons_of_mem _ hp)

end

/-- Layouts are physically sound: of a type that starts at a multiple of its alignment, every
leaf starts at a multiple of its own alignment, the leaves lie one after another in the order of
declaration without overlap, and all of them lie inside the size of the type. -/
theorem leaves_sound (type : TypeDesc) (base : Nat) (h : type.align ∣ base) :
  (∀ l ∈ leaves base type, l.align ∣ l.address) ∧
    ((leaves base type).Pairwise fun a b => a.stop ≤ b.address) ∧
    ∀ l ∈ leaves base type, base ≤ l.address ∧ l.stop ≤ base + type.size
  := by
  have hspread := leaves_spread type base
  exact ⟨leaves_aligned type base h, hspread.ordered, hspread.inside⟩

/-- A struct with an array whose items are aligned to eight bytes but occupy one byte each, since
they have no content. -/
def hollow : TypeDesc :=
  .struct [("flag", .u8),
    ("holes", .array 2 (.struct [("gap", .array 0 .u64), ("pad", .bytes 0)])), ("total", .u64)]

theorem leaves_sound_hollow :
  hollow.align ∣ 64 ∧
    leaves 64 hollow =
      [⟨64, .u8⟩, ⟨72, .bytes 0⟩, ⟨73, .bytes 0⟩, ⟨80, .u64⟩] ∧
    ((∀ l ∈ leaves 64 hollow, l.align ∣ l.address) ∧
      ((leaves 64 hollow).Pairwise fun a b => a.stop ≤ b.address) ∧
      ∀ l ∈ leaves 64 hollow, 64 ≤ l.address ∧ l.stop ≤ 64 + hollow.size)
  := ⟨by decide, by decide, leaves_sound hollow 64 (by decide)⟩

end TypeDesc

end ContractInterface
