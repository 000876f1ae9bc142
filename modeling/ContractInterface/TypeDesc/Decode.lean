import ContractInterface.Json.Basic
import ContractInterface.TypeDesc.Basic

/-!
# Reading type descriptions from JSON

Reading checks the members that the form of a description needs and ignores all others.  A
fault is reported with the path of the offending value.
-/

namespace ContractInterface.TypeDesc

/-- What is wrong with a value that describes no type. -/
inductive DecodeCause where
  | notObject
  | notString
  | notUint
  | notArray
  | emptyName
  | unknownType (type : JsonString)
  deriving DecidableEq, Repr

/-- A fault in a description, with its path. -/
structure DecodeError where
  path : String
  cause : DecodeCause
  deriving DecidableEq, Repr

/-- The wording of a fault. -/
def DecodeError.message (e : DecodeError) : String :=
  match e.cause with
  | .notObject => e.path ++ " must be an object"
  | .notString => e.path ++ " must be a string"
  | .notUint => e.path ++ " must be an integer >= 0"
  | .notArray => e.path ++ " must be an array"
  | .emptyName => e.path ++ " must be a non-empty string"
  | .unknownType type => e.path ++ " is unknown: " ++ type.toText

/-- The natural number under a name. -/
def decodeNat (path : String) (members : Json.Members) (name : String) :
    Except DecodeError Nat :=
  match (Assignments.get? members name).bind Json.nat? with
  | some n => .ok n
  | none => .error ⟨path ++ "." ++ name, .notUint⟩

/-- The size of a side without data; null counts as absent. -/
def decodeExpectedSize (path : String) (members : Json.Members) :
    Except DecodeError (Option Nat) :=
  match Assignments.get? members "expectedSize" with
  | none | some .null => .ok none
  | some _ => some <$> decodeNat path members "expectedSize"

/-- The name of a field. -/
def decodeName (path : String) (members : Json.Members) : Except DecodeError JsonString :=
  match Assignments.get? members "name" with
  | some (.str name) =>
    if name.isEmpty then .error ⟨path ++ ".name", .emptyName⟩ else .ok name
  | _ => .error ⟨path ++ ".name", .emptyName⟩

mutual

/-- Reads a description from a value at a path. -/
def decode (path : String) : Json → Except DecodeError TypeDesc
  | .obj members =>
    match Assignments.get? members "type" with
    | some (.text type) =>
      if type = "nodata" then .nodata <$> decodeExpectedSize path members
      else if let some kind := Scalar.ofName? type then .ok (.scalar kind)
      else if type = "m256i" then .ok .m256i
      else if type = "bytes" then .bytes <$> decodeNat path members "length"
      else if type = "array" then do
        let length ← decodeNat path members "length"
        let item ← decodeUnder (path ++ ".item") "item" members
        return .array length item
      else if type = "struct" then .struct <$> decodeFieldsUnder (path ++ ".fields") members
      else .error ⟨path ++ ".type", .unknownType type⟩
    | some (.str type) => .error ⟨path ++ ".type", .unknownType type⟩
    | _ => .error ⟨path ++ ".type", .notString⟩
  | _ => .error ⟨path, .notObject⟩

/-- Reads a description from the member with a given name. -/
def decodeUnder (path name : String) : List (JsonString × Json) → Except DecodeError TypeDesc
  | [] => .error ⟨path, .notObject⟩
  | (key, value) :: members =>
    if key = .text name then decode path value else decodeUnder path name members

/-- Reads fields from the member named `fields`. -/
def decodeFieldsUnder (path : String) :
    List (JsonString × Json) → Except DecodeError (List (JsonString × TypeDesc))
  | [] => .error ⟨path, .notArray⟩
  | (key, value) :: members =>
    if key = .text "fields" then
      match value with
      | .arr items => decodeFields path 0 items
      | _ => .error ⟨path, .notArray⟩
    else decodeFieldsUnder path members

/-- Reads fields from a list, given the number of fields before it. -/
def decodeFields (path : String) (i : Nat) :
    List Json → Except DecodeError (List (JsonString × TypeDesc))
  | [] => .ok []
  | item :: items => do
    let here := path ++ "[" ++ toString i ++ "]"
    let field ←
      match item with
      | .obj members => do
        let name ← decodeName here members
        let type ← decodeUnder (here ++ ".typeRef") "typeRef" members
        pure (name, type)
      | _ => .error ⟨here, .notObject⟩
    return field :: (← decodeFields path (i + 1) items)

end

end ContractInterface.TypeDesc
