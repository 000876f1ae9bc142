import ContractInterface.Json.Display
import ContractInterface.TypeDesc.Encode
import ContractInterface.TypeDesc.Layout

/-!
# Drafts of type descriptions

A draft has the form of a type description, but its lengths, sizes and field names are values
that nobody has checked, and a part of it may be no description at all.  Laying out a draft
checks what it meets, from the outside to the inside and from left to right.  What is wrong is told
with the value in question, unless that is too long to be written.
-/

namespace ContractInterface

/-- A type description before any check. -/
inductive Draft where
  | nodata (expectedSize : Json)
  | scalar (kind : Scalar)
  | bytes (length : Json)
  | m256i
  | array (length : Json) (item : Draft)
  | struct (fields : List (Json × Draft))
  /-- A value that is no description. -/
  | foreign (value : Json)
  deriving Inhabited, Repr

namespace Draft

/-! ### Reading -/

mutual

/-- Takes a value for a draft. -/
def ofJson : Json → Draft
  | .obj members =>
    match Assignments.get? members "type" with
    | some (.text type) =>
      if type = "nodata" then .nodata ((Assignments.get? members "expectedSize").getD .null)
      else if let some kind := Scalar.ofName? type then .scalar kind
      else if type = "m256i" then .m256i
      else if type = "bytes" then .bytes ((Assignments.get? members "length").getD .null)
      else if type = "array" then
        .array ((Assignments.get? members "length").getD .null) (ofJsonUnder members)
      else if type = "struct" then .struct (ofJsonFields members)
      else .foreign (.obj members)
    | _ => .foreign (.obj members)
  | value => .foreign value

/-- Takes the member named `item` for a draft. -/
def ofJsonUnder : List (JsonString × Json) → Draft
  | [] => .foreign .null
  | (key, value) :: members =>
    if key = .text "item" then ofJson value else ofJsonUnder members

/-- Takes the member named `fields` for a list of fields. -/
def ofJsonFields : List (JsonString × Json) → List (Json × Draft)
  | [] => []
  | (key, value) :: members =>
    if key = .text "fields" then
      match value with
      | .arr items => ofJsonItems items
      | _ => []
    else ofJsonFields members

/-- Takes values for fields. -/
def ofJsonItems : List Json → List (Json × Draft)
  | [] => []
  | item :: items =>
    let field :=
      match item with
      | .obj members =>
        ((Assignments.get? members "name").getD .null, ofJsonType members)
      | _ => (.null, .foreign .null)
    field :: ofJsonItems items

/-- Takes the member named `typeRef` for a draft. -/
def ofJsonType : List (JsonString × Json) → Draft
  | [] => .foreign .null
  | (key, value) :: members =>
    if key = .text "typeRef" then ofJson value else ofJsonType members

end

/-! ### Layout -/

/-- What can be wrong with a part of a draft. -/
inductive Fault where
  /-- A value stands where a description should. -/
  | notADescription (value : Json)
  /-- The length of a run of bytes or of an array is no natural number. -/
  | badLength (label : String) (value : Json)
  /-- The size of a side without data cannot be compared with a number. -/
  | badSize (value : Json)
  deriving DecidableEq, Repr

/-- The name of the kind of a value in messages. -/
def kindName : Json → String
  | .null => "NoneType"
  | .bool _ => "bool"
  | .int _ => "int"
  | .float _ => "float"
  | .str _ => "str"
  | .arr _ => "list"
  | .obj _ => "dict"

/-- The wording of a fault. -/
def Fault.message : Fault → String
  | .notADescription value => "Not a TypeRef: " ++ value.display
  | .badLength label value =>
    label ++ " must be a non-negative integer, got " ++ value.display
  | .badSize value =>
    "'>' not supported between instances of '" ++ kindName value ++ "' and 'int'"

/-- The value that the wording of a fault shows. -/
def Fault.subject? : Fault → Option Json
  | .notADescription value => some value
  | .badLength _ value => some value
  | .badSize _ => none

/-- Why a draft is refused. -/
inductive Refusal where
  | fault (cause : Fault)
  /-- The wording of the fault would show an integer that is too long to be written. -/
  | numeral (cause : Numeral.Error)
  deriving DecidableEq, Repr

/-- The wording of a refusal. -/
def Refusal.message : Refusal → String
  | .fault cause => cause.message
  | .numeral cause => cause.message

/-- The refusal for a fault. -/
def Fault.refusal (e : Fault) : Refusal :=
  if e.subject?.all Json.isWritable then .fault e else .numeral .unwritable

/-- The length that a value gives. -/
def length (label : String) (value : Json) : Except Refusal Nat :=
  match value.nat? with
  | some n => .ok n
  | none => .error (Fault.badLength label value).refusal

/-- Whether a value counts as absent. -/
def isVoid : Json → Bool
  | .null => true
  | .bool b => !b
  | .int n => n == 0
  | .float (.finite _ m _) => m == 0
  | .float _ => false
  | .str s => s.isEmpty
  | .arr items => items.isEmpty
  | .obj members => members.isEmpty

/-- The size of a side without data: what is expected, but at least a byte. -/
def nodataSize (value : Json) : Except Refusal Nat :=
  if isVoid value then .ok 1
  else
    match value with
    | .int n => .ok (max 1 n.toNat)
    | .bool _ => .ok 1
    | .float x => if x.exceedsOne then .error (Fault.badSize value).refusal else .ok 1
    | value => .error (Fault.badSize value).refusal

mutual

/-- The layout of a draft. -/
def layout : Draft → Except Refusal Layout
  | .nodata expectedSize => do return ⟨← nodataSize expectedSize, 1⟩
  | .scalar kind => .ok ⟨kind.width, kind.width⟩
  | .bytes value => do return ⟨← length "bytes.length" value, 1⟩
  | .m256i => .ok Layout.m256i
  | .array value item => do
    let n ← length "array.length" value
    let l ← layout item
    return ⟨l.size * n, l.align⟩
  | .struct fields => do return Placement.enclose (Placement.place (← fieldLayouts fields))
  | .foreign value => .error (Fault.notADescription value).refusal

/-- The layouts of the fields of a struct. -/
def fieldLayouts : List (Json × Draft) → Except Refusal (List (Json × Layout))
  | [] => .ok []
  | (name, draft) :: fields => do
    let l ← layout draft
    return (name, l) :: (← fieldLayouts fields)

end

/-! ### Writing -/

mutual

/-- The JSON form of a draft; only a part that is no description has none. -/
def toJson : Draft → Except Refusal Json
  | .nodata expectedSize =>
    .ok (TypeDesc.tagged "nodata"
      (if expectedSize = .null then [] else [("expectedSize", expectedSize)]))
  | .scalar kind => .ok (TypeDesc.tagged kind.name [])
  | .bytes length => .ok (TypeDesc.tagged "bytes" [("length", length)])
  | .m256i => .ok (TypeDesc.tagged "m256i" [])
  | .array length item => do
    return TypeDesc.tagged "array" [("length", length), ("item", ← toJson item)]
  | .struct fields => do
    return TypeDesc.tagged "struct" [("fields", .arr (← fieldsToJson fields))]
  | .foreign value => .error (Fault.notADescription value).refusal

/-- The JSON forms of the fields of a struct. -/
def fieldsToJson : List (Json × Draft) → Except Refusal (List Json)
  | [] => .ok []
  | (name, draft) :: fields => do
    let type ← toJson draft
    return .obj [("name", name), ("typeRef", type)] :: (← fieldsToJson fields)

end

end Draft

end ContractInterface
