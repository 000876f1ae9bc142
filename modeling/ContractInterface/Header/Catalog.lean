import ContractInterface.Text.Blank
import ContractInterface.Text.Digit
import ContractInterface.TypeDesc.Basic

/-!
# The catalog of type names

Some type names have a meaning of their own, whatever the header declares: the array templates,
the integer, identifier and bit arrays with a length in their name, the primitive types, and a
few library structs whose layout is fixed.
-/

namespace ContractInterface.Header

/-- A type name that the catalog knows. -/
inductive CatalogType where
  /-- `Array<item, length>` -/
  | fixedArray (item length : Text)
  /-- `BitArray<bits>` -/
  | bitArray (bits : Text)
  /-- `uint64_4` and the like -/
  | integerArray (signed : Bool) (width : Nat) (length : Text)
  /-- `id_8` and the like -/
  | idArray (length : Text)
  /-- `bit_1024` and the like -/
  | bitCount (length : Text)
  | primitive (type : TypeDesc)
  | aggregate (type : TypeDesc)
  /-- `ProposalDataV1<true>` or `ProposalDataV1<false>` -/
  | proposalData
  deriving DecidableEq, Repr

namespace CatalogType

/-! ### Template arguments -/

/-- The text between the angle brackets of a template with a given name. -/
def templateArgument? (name : String) (t : Text) : Option Text := do
  let t ← Text.dropPrefix? name.toList t
  let t ← Text.dropPrefix? ['<'] (Text.trimLeft t)
  Text.dropSuffix? ['>'] t

/-- Whether a character is an angle bracket. -/
def isAngle (c : Char) : Bool :=
  c == '<' || c == '>'

/-- An argument without the blanks around it; of an argument of blanks alone the last one
stays. -/
def trimArgument? (t : Text) : Option Text :=
  let core := Text.trim t
  if core.isEmpty then t.getLast?.map ([·]) else some core

/-- The item type of an array template: it stands on one line, and of an argument of blanks
alone the last one that is no line end stays. -/
def itemArgument? (t : Text) : Option Text :=
  let core := Text.trim t
  if core.isEmpty then (t.reverse.find? (· != '\n')).map ([·])
  else if core.contains '\n' then none
  else some core

/-! ### Recognizers -/

/-- Recognizes `Array<item, length>`; the length stands after the last comma. -/
def fixedArray? (t : Text) : Option CatalogType := do
  let t ← templateArgument? "Array" t
  let (item, _, length) ← Text.cutAtLast? (· == ',') t
  if length.any isAngle then none
  else some (.fixedArray (← itemArgument? item) (← trimArgument? length))

/-- Recognizes `BitArray<bits>`. -/
def bitArray? (t : Text) : Option CatalogType := do
  let t ← templateArgument? "BitArray" t
  if t.any isAngle then none else some (.bitArray (← trimArgument? t))

/-- The digits after a beginning, if nothing else follows it. -/
def digitsAfter? (front : String) (t : Text) : Option Text := do
  let digits ← Text.dropPrefix? front.toList t
  if digits.isEmpty || !digits.all isDecimal then none else some digits

/-- The integer types that have array names: whether signed, and the width in bits. -/
def integerTypes : List (Bool × Nat) :=
  [(true, 8), (true, 16), (true, 32), (true, 64),
    (false, 8), (false, 16), (false, 32), (false, 64)]

/-- The word that integer types of a signedness start with. -/
def signWord (signed : Bool) : String :=
  if signed then "sint" else "uint"

/-- Recognizes integer arrays such as `uint64_4`. -/
def integerArray? (t : Text) : Option CatalogType :=
  integerTypes.findSome? fun (signed, width) =>
    (digitsAfter? (signWord signed ++ toString width ++ "_") t).map (.integerArray signed width)

/-- Recognizes identifier arrays such as `id_8`. -/
def idArray? (t : Text) : Option CatalogType :=
  (digitsAfter? "id_" t).map .idArray

/-- Recognizes bit arrays such as `bit_1024`. -/
def bitCount? (t : Text) : Option CatalogType :=
  (digitsAfter? "bit_" t).map .bitCount

/-- The spellings of the primitive types. -/
def primitives : List (String × TypeDesc) :=
  [("uint8", .scalar .u8), ("unsigned char", .scalar .u8),
    ("sint8", .scalar .i8), ("signed char", .scalar .i8),
    ("uint16", .scalar .u16), ("unsigned short", .scalar .u16),
    ("sint16", .scalar .i16), ("signed short", .scalar .i16),
    ("uint32", .scalar .u32), ("unsigned int", .scalar .u32),
    ("sint32", .scalar .i32), ("signed int", .scalar .i32),
    ("uint64", .scalar .u64), ("unsigned long long", .scalar .u64),
    ("sint64", .scalar .i64), ("signed long long", .scalar .i64), ("long long", .scalar .i64),
    ("bool", .scalar .bool), ("bit", .scalar .bool), ("id", .m256i), ("m256i", .m256i)]

/-- Recognizes the primitive types. -/
def primitive? (t : Text) : Option CatalogType :=
  (primitives.lookup (String.ofList t)).map .primitive

/-- The library structs with a fixed layout.  Of the result of a vote, which is a union, only
the size is kept. -/
def aggregates : List (String × TypeDesc) :=
  [("Asset", .struct [("issuer", .m256i), ("assetName", .u64)]),
    ("ProposalSingleVoteDataV1",
      .struct [("proposalIndex", .u16), ("proposalType", .u16), ("proposalTick", .u32),
        ("voteValue", .i64)]),
    ("ProposalMultiVoteDataV1",
      .struct [("proposalIndex", .u16), ("proposalType", .u16), ("proposalTick", .u32),
        ("voteValues", .array 8 .i64), ("voteCounts", .array 8 .u32)]),
    ("ProposalSummarizedVotingDataV1",
      .struct [("proposalIndex", .u16), ("optionCount", .u16), ("proposalTick", .u32),
        ("totalVotesAuthorized", .u32), ("totalVotesCasted", .u32),
        ("resultBytes", .bytes 32)]),
    ("ProposalDataYesNo", .bytes 304)]

/-- Recognizes the library structs. -/
def aggregate? (t : Text) : Option CatalogType :=
  (aggregates.lookup (String.ofList t)).map .aggregate

/-- Recognizes the proposal template, whose argument does not change the layout. -/
def proposalData? (t : Text) : Option CatalogType := do
  let t ← templateArgument? "ProposalDataV1" t
  let argument := String.ofList (Text.trim t)
  if argument = "true" || argument = "false" then some .proposalData else none

/-- The recognizers, in the order in which they are tried. -/
def recognizers : List (Text → Option CatalogType) :=
  [fixedArray?, bitArray?, integerArray?, idArray?, bitCount?, primitive?, aggregate?,
    proposalData?]

/-- Looks a type name up in the catalog. -/
def ofName? (t : Text) : Option CatalogType :=
  recognizers.findSome? fun recognize => recognize t

/-! ### Shapes -/

/-- The size in bytes of a proposal. -/
def proposalSize : Nat := 328

/-- The integer scalar of a signedness and a width in bits. -/
def integerScalar : Bool → Nat → Scalar
  | false, 8 => .u8
  | false, 16 => .u16
  | false, 32 => .u32
  | false, _ => .u64
  | true, 8 => .i8
  | true, 16 => .i16
  | true, 32 => .i32
  | true, _ => .i64

/-- A number of bits packed into 64-bit words, of which there is at least one. -/
def packedBits (bits : Nat) : TypeDesc :=
  .array (max 1 ((bits + 63) / 64)) .u64

end CatalogType

end ContractInterface.Header
