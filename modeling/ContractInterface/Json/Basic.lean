import ContractInterface.Json.CodePoint
import ContractInterface.Json.Double
import ContractInterface.Table

/-!
# JSON values

Integers and doubles are different values, also where they denote the same number.  The members
of an object keep their order, and no two of them have the same name.
-/

namespace ContractInterface

/-- A JSON value. -/
inductive Json where
  | null
  | bool (b : Bool)
  | int (n : Int)
  | float (x : Double)
  | str (s : JsonString)
  | arr (items : List Json)
  | obj (members : List (JsonString × Json))
  deriving Inhabited, Repr

namespace Json

/-! ### Equality of values is decidable -/

mutual

/-- Decides whether two values are equal. -/
def decEq : (a b : Json) → Decidable (a = b)
  | .null, .null => .isTrue rfl
  | .bool a, .bool b => decidable_of_iff (a = b) (by simp)
  | .int a, .int b => decidable_of_iff (a = b) (by simp)
  | .float a, .float b => decidable_of_iff (a = b) (by simp)
  | .str a, .str b => decidable_of_iff (a = b) (by simp)
  | .arr a, .arr b =>
    match decEqItems a b with
    | .isTrue h => .isTrue (by rw [h])
    | .isFalse h => .isFalse (by simpa using h)
  | .obj a, .obj b =>
    match decEqMembers a b with
    | .isTrue h => .isTrue (by rw [h])
    | .isFalse h => .isFalse (by simpa using h)
  | .null, .bool _ | .null, .int _ | .null, .float _ | .null, .str _ | .null, .arr _
  | .null, .obj _ | .bool _, .null | .bool _, .int _ | .bool _, .float _ | .bool _, .str _
  | .bool _, .arr _ | .bool _, .obj _ | .int _, .null | .int _, .bool _ | .int _, .float _
  | .int _, .str _ | .int _, .arr _ | .int _, .obj _ | .float _, .null | .float _, .bool _
  | .float _, .int _ | .float _, .str _ | .float _, .arr _ | .float _, .obj _ | .str _, .null
  | .str _, .bool _ | .str _, .int _ | .str _, .float _ | .str _, .arr _ | .str _, .obj _
  | .arr _, .null | .arr _, .bool _ | .arr _, .int _ | .arr _, .float _ | .arr _, .str _
  | .arr _, .obj _ | .obj _, .null | .obj _, .bool _ | .obj _, .int _ | .obj _, .float _
  | .obj _, .str _ | .obj _, .arr _ => .isFalse (by simp)

/-- Decides whether two lists of items are equal. -/
def decEqItems : (as bs : List Json) → Decidable (as = bs)
  | [], [] => .isTrue rfl
  | [], _ :: _ => .isFalse (by simp)
  | _ :: _, [] => .isFalse (by simp)
  | a :: as, b :: bs =>
    match decEq a b, decEqItems as bs with
    | .isTrue h, .isTrue h' => .isTrue (by rw [h, h'])
    | .isFalse h, _ => .isFalse (by simp [h])
    | _, .isFalse h => .isFalse (by simp [h])

/-- Decides whether two lists of members are equal. -/
def decEqMembers : (as bs : List (JsonString × Json)) → Decidable (as = bs)
  | [], [] => .isTrue rfl
  | [], _ :: _ => .isFalse (by simp)
  | _ :: _, [] => .isFalse (by simp)
  | (k, a) :: as, (l, b) :: bs =>
    match decEq a b, decEqMembers as bs with
    | .isTrue h, .isTrue h' => decidable_of_iff (k = l) (by simp [h, h'])
    | .isFalse h, _ => .isFalse (by simp [h])
    | _, .isFalse h => .isFalse (by simp [h])

end

instance : DecidableEq Json := decEq

/-! ### Members -/

/-- The members of an object, in order. -/
abbrev Members := Assignments JsonString Json

/-- The string with a given text. -/
@[match_pattern]
abbrev text (s : String) : Json := .str (.text s)

/-- The member of a value with a given name; only objects have members. -/
def member? (v : Json) (name : String) : Option Json :=
  match v with
  | .obj members => Assignments.get? members name
  | _ => none

/-- The member of a value with a given name, and null if there is none. -/
def memberOrNull (v : Json) (name : String) : Json :=
  (v.member? name).getD .null

/-- The natural number that a value is; doubles and truth values are not numbers here. -/
def nat? : Json → Option Nat
  | .int (.ofNat n) => some n
  | _ => none

/-- The object with the members that are present. -/
def ofPresent (members : List (String × Option Json)) : Json :=
  .obj (members.filterMap fun (name, value) => value.map fun v => (.text name, v))

/-! ### Integers -/

mutual

/-- Whether every integer in a value is short enough to be written. -/
def isWritable : Json → Bool
  | .int n => Numeral.isWritable n
  | .arr items => itemsWritable items
  | .obj members => membersWritable members
  | _ => true

/-- Whether every integer in a list of values is short enough to be written. -/
def itemsWritable : List Json → Bool
  | [] => true
  | item :: items => isWritable item && itemsWritable items

/-- Whether every integer in a list of members is short enough to be written. -/
def membersWritable : List (JsonString × Json) → Bool
  | [] => true
  | (_, value) :: members => isWritable value && membersWritable members

end

end Json

end ContractInterface
