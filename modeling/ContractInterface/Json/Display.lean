import ContractInterface.Json.Basic

/-!
# Values in messages

Messages show a value on one line: text between quotes, lists in square brackets and objects in
braces, with capitalised words for null and the truth values.  A value with an integer that is too
long to be written cannot be shown.
-/

namespace ContractInterface.Json

mutual

/-- A value as it is shown in messages. -/
def display : Json → String
  | .null => "None"
  | .bool true => "True"
  | .bool false => "False"
  | .int n => Numeral.render n
  | .float x => x.render
  | .str s => s.quoted
  | .arr items => "[" ++ ", ".intercalate (displayItems items) ++ "]"
  | .obj members => "\x7b" ++ ", ".intercalate (displayMembers members) ++ "\x7d"

/-- The items of a list as they are shown. -/
def displayItems : List Json → List String
  | [] => []
  | item :: items => display item :: displayItems items

/-- The members of an object as they are shown. -/
def displayMembers : List (JsonString × Json) → List String
  | [] => []
  | (name, value) :: members =>
    (name.quoted ++ ": " ++ display value) :: displayMembers members

end

/-- A value as it is shown in messages, unless an integer in it is too long to be written. -/
def shown (v : Json) : Except Numeral.Error String :=
  if v.isWritable then .ok v.display else .error .unwritable

end ContractInterface.Json
