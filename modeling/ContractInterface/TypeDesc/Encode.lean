import ContractInterface.Json.Basic
import ContractInterface.TypeDesc.Basic

/-!
# Type descriptions as JSON

A description is written as an object whose `type` member names its form.
-/

namespace ContractInterface.TypeDesc

/-- The object with a `type` member and the given further members. -/
def tagged (type : String) (members : Json.Members) : Json :=
  .obj (("type", .text type) :: members)

mutual

/-- The JSON form of a description. -/
def toJson : TypeDesc → Json
  | .nodata expectedSize =>
    tagged "nodata" (expectedSize.toList.map fun (n : Nat) => (.text "expectedSize", Json.int n))
  | .scalar kind => tagged kind.name []
  | .bytes length => tagged "bytes" [("length", .int length)]
  | .m256i => tagged "m256i" []
  | .array length item => tagged "array" [("length", .int length), ("item", toJson item)]
  | .struct fields => tagged "struct" [("fields", .arr (fieldsToJson fields))]

/-- The JSON forms of the fields of a struct. -/
def fieldsToJson : List (JsonString × TypeDesc) → List Json
  | [] => []
  | (name, type) :: fields =>
    .obj [("name", .str name), ("typeRef", toJson type)] :: fieldsToJson fields

end

end ContractInterface.TypeDesc
