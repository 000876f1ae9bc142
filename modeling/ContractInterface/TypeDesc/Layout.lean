import ContractInterface.Text.Numeral
import ContractInterface.TypeDesc.Basic

/-!
# Memory layout

Every field is placed at the first multiple of its alignment that is not below the end of the
field before it.  A struct is aligned like its most demanding field and padded to a multiple of
that alignment; one that would be empty occupies a byte.  Arrays repeat their item without gaps.
-/

namespace ContractInterface

/-- The size and the alignment of a type in bytes. -/
structure Layout where
  size : Nat
  align : Nat
  deriving DecidableEq, Repr

/-- The least multiple of an alignment that is not below a value; an alignment of at most one
constrains nothing. -/
def alignUp (value align : Nat) : Nat :=
  if align ≤ 1 then value else (value + align - 1) / align * align

/-- Rounding up for integers of either sign. -/
def alignUpInt (value align : Int) : Int :=
  if align ≤ 1 then value else -(Int.fdiv (-value) align) * align

/-- Where a field lies in its struct. -/
structure Placement (ν : Type) where
  name : ν
  offset : Nat
  size : Nat
  align : Nat
  deriving DecidableEq, Repr

namespace Placement

variable {ν : Type}

/-- The first byte after a field. -/
def stop (p : Placement ν) : Nat := p.offset + p.size

/-- Places fields one after another, from a given offset on. -/
def placeFrom : Nat → List (ν × Layout) → List (Placement ν)
  | _, [] => []
  | offset, (name, layout) :: fields =>
    let p : Placement ν := ⟨name, alignUp offset layout.align, layout.size, layout.align⟩
    p :: placeFrom p.stop fields

/-- Places the fields of a struct. -/
def place (fields : List (ν × Layout)) : List (Placement ν) :=
  placeFrom 0 fields

/-- The largest alignment among placed fields, and 1 if there are none. -/
def maxAlign (placements : List (Placement ν)) : Nat :=
  placements.foldl (fun align p => max align p.align) 1

/-- The first byte after the last placed field. -/
def finish (placements : List (Placement ν)) : Nat :=
  (placements.getLast?.map stop).getD 0

/-- The layout of a struct with the given placed fields. -/
def enclose (placements : List (Placement ν)) : Layout :=
  let align := maxAlign placements
  let size := alignUp (finish placements) align
  ⟨if size = 0 then 1 else size, align⟩

end Placement

/-- The size and alignment of a 256-bit identifier: 32 bytes, aligned like a 64-bit word. -/
def Layout.m256i : Layout := ⟨32, 8⟩

namespace TypeDesc

mutual

/-- The layout of a type. -/
def layout : TypeDesc → Layout
  | .nodata expectedSize => ⟨max 1 (expectedSize.getD 1), 1⟩
  | .scalar kind => ⟨kind.width, kind.width⟩
  | .bytes length => ⟨length, 1⟩
  | .m256i => Layout.m256i
  | .array length item =>
    let l := layout item
    ⟨l.size * length, l.align⟩
  | .struct fields => Placement.enclose (Placement.place (fieldLayouts fields))

/-- The layouts of the fields of a struct. -/
def fieldLayouts : List (JsonString × TypeDesc) → List (JsonString × Layout)
  | [] => []
  | (name, type) :: fields => (name, layout type) :: fieldLayouts fields

end

/-- The size of a type in bytes. -/
def size (type : TypeDesc) : Nat := type.layout.size

/-- The alignment of a type in bytes. -/
def align (type : TypeDesc) : Nat := type.layout.align

/-- Where the fields of a struct lie. -/
def placements (fields : List (JsonString × TypeDesc)) : List (Placement JsonString) :=
  Placement.place (fieldLayouts fields)

end TypeDesc

namespace Placement

variable {ν : Type}

/-- The bytes that the fields of a struct occupy. -/
def dataBytes (placements : List (Placement ν)) : Nat :=
  placements.foldl (fun bytes p => bytes + p.size) 0

/-- The bytes of a struct that belong to no field; the byte of a struct without fields is not
padding. -/
def padding (placements : List (Placement ν)) : Int :=
  if placements.isEmpty then 0 else (enclose placements).size - (dataBytes placements : Int)

/-- The padding as it is reported, next to the number of bytes of data, which must be short
enough to be written. -/
def reportPadding (placements : List (Placement ν)) : Except Numeral.Error Int := do
  unless placements.isEmpty do
    Numeral.requireWritable (dataBytes placements)
    Numeral.requireWritable (padding placements)
  return padding placements

end Placement

end ContractInterface
