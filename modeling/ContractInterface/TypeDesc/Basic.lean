import ContractInterface.Json.CodePoint

/-!
# Type descriptions

A type description says how a value is laid out in memory, without reference to the language it
was declared in.  An entry side without data, a fixed-width scalar, an opaque run of bytes, a
256-bit identifier, a fixed-length array and a struct are all there is.  The name of a field is a
JSON string; one that comes from a header is a text.
-/

namespace ContractInterface

/-- The kinds of fixed-width scalars. -/
inductive Scalar where
  | u8
  | u16
  | u32
  | u64
  | i8
  | i16
  | i32
  | i64
  | bool
  deriving DecidableEq, Repr

namespace Scalar

/-- The width of a scalar in bytes, which is also its alignment. -/
def width : Scalar → Nat
  | .u8 | .i8 | .bool => 1
  | .u16 | .i16 => 2
  | .u32 | .i32 => 4
  | .u64 | .i64 => 8

/-- The name of a scalar in documents. -/
def name : Scalar → String
  | .u8 => "u8"
  | .u16 => "u16"
  | .u32 => "u32"
  | .u64 => "u64"
  | .i8 => "i8"
  | .i16 => "i16"
  | .i32 => "i32"
  | .i64 => "i64"
  | .bool => "bool"

/-- All scalars. -/
def all : List Scalar :=
  [.u8, .u16, .u32, .u64, .i8, .i16, .i32, .i64, .bool]

/-- The scalar with a given name. -/
def ofName? (s : String) : Option Scalar :=
  all.find? fun kind => kind.name = s

end Scalar

/-- The shape of a type in memory. -/
inductive TypeDesc where
  /-- A side without data, with the size it occupies if that is known. -/
  | nodata (expectedSize : Option Nat)
  /-- A fixed-width integer or a truth value. -/
  | scalar (kind : Scalar)
  /-- An opaque run of bytes. -/
  | bytes (length : Nat)
  /-- A 256-bit identifier. -/
  | m256i
  /-- A fixed number of equal items. -/
  | array (length : Nat) (item : TypeDesc)
  /-- Named fields in declaration order. -/
  | struct (fields : List (JsonString × TypeDesc))
  deriving Inhabited, Repr

namespace TypeDesc

/-- The stand-in for a type whose shape could not be found out. -/
def placeholder : TypeDesc := .bytes 0

/-- An unsigned byte. -/
def u8 : TypeDesc := .scalar .u8

/-- An unsigned 16-bit integer. -/
def u16 : TypeDesc := .scalar .u16

/-- An unsigned 32-bit integer. -/
def u32 : TypeDesc := .scalar .u32

/-- An unsigned 64-bit integer. -/
def u64 : TypeDesc := .scalar .u64

/-- A signed 64-bit integer. -/
def i64 : TypeDesc := .scalar .i64

/-! ### Equality of descriptions is decidable -/

mutual

/-- Decides whether two descriptions are equal. -/
def decEq : (s t : TypeDesc) → Decidable (s = t)
  | .nodata m, .nodata n => decidable_of_iff (m = n) (by simp)
  | .scalar k, .scalar l => decidable_of_iff (k = l) (by simp)
  | .bytes m, .bytes n => decidable_of_iff (m = n) (by simp)
  | .m256i, .m256i => .isTrue rfl
  | .array m s, .array n t =>
    match decEq s t with
    | .isTrue h => decidable_of_iff (m = n) (by simp [h])
    | .isFalse h => .isFalse (by simp [h])
  | .struct fs, .struct gs =>
    match decEqFields fs gs with
    | .isTrue h => .isTrue (by rw [h])
    | .isFalse h => .isFalse (by simpa using h)
  | .nodata _, .scalar _ | .nodata _, .bytes _ | .nodata _, .m256i | .nodata _, .array _ _
  | .nodata _, .struct _ | .scalar _, .nodata _ | .scalar _, .bytes _ | .scalar _, .m256i
  | .scalar _, .array _ _ | .scalar _, .struct _ | .bytes _, .nodata _ | .bytes _, .scalar _
  | .bytes _, .m256i | .bytes _, .array _ _ | .bytes _, .struct _ | .m256i, .nodata _
  | .m256i, .scalar _ | .m256i, .bytes _ | .m256i, .array _ _ | .m256i, .struct _
  | .array _ _, .nodata _ | .array _ _, .scalar _ | .array _ _, .bytes _ | .array _ _, .m256i
  | .array _ _, .struct _ | .struct _, .nodata _ | .struct _, .scalar _ | .struct _, .bytes _
  | .struct _, .m256i | .struct _, .array _ _ => .isFalse (by simp)

/-- Decides whether two field lists are equal. -/
def decEqFields : (fs gs : List (JsonString × TypeDesc)) → Decidable (fs = gs)
  | [], [] => .isTrue rfl
  | [], _ :: _ => .isFalse (by simp)
  | _ :: _, [] => .isFalse (by simp)
  | (m, s) :: fs, (n, t) :: gs =>
    match decEq s t, decEqFields fs gs with
    | .isTrue h, .isTrue h' => decidable_of_iff (m = n) (by simp [h, h'])
    | .isFalse h, _ => .isFalse (by simp [h])
    | _, .isFalse h => .isFalse (by simp [h])

end

instance : DecidableEq TypeDesc := decEq

end TypeDesc

end ContractInterface
