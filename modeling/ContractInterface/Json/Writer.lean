import ContractInterface.Json.Basic

/-!
# Writing JSON

A document is written in ASCII with every item and member on a line of its own, indented by two
spaces per level.  Characters outside the printable ASCII range are written as UTF-16 escapes.
-/

namespace ContractInterface.Json

/-- A UTF-16 unit as an escape. -/
def escapeUnit (n : Nat) : Text :=
  '\\' :: 'u' :: Text.hexDigits 4 n

/-- A character as it stands in a JSON string. -/
def escapeChar (c : Char) : Text :=
  if c = '"' then ['\\', '"']
  else if c = '\\' then ['\\', '\\']
  else if c = '\n' then ['\\', 'n']
  else if c = '\r' then ['\\', 'r']
  else if c = '\t' then ['\\', 't']
  else if c.toNat = 8 then ['\\', 'b']
  else if c.toNat = 12 then ['\\', 'f']
  else if 32 ≤ c.toNat && c.toNat < 127 then [c]
  else if c.toNat < 0x10000 then escapeUnit c.toNat
  else
    let n := c.toNat - 0x10000
    escapeUnit (0xd800 + n / 0x400) ++ escapeUnit (0xdc00 + n % 0x400)

/-- A code point as it stands in a JSON string. -/
def escapePoint : CodePoint → Text
  | .char c => escapeChar c
  | .half unit => escapeUnit unit

/-- A JSON string. -/
def writeString (s : JsonString) : Text :=
  '"' :: s.points.flatMap escapePoint ++ ['"']

/-- A double in a JSON text; the numbers without a decimal have names. -/
def writeDouble : Double → Text
  | .nan => "NaN".toList
  | .infinite negative => if negative then "-Infinity".toList else "Infinity".toList
  | x => x.render.toList

/-- A line end with the indentation of a level. -/
def newline (level : Nat) : Text :=
  '\n' :: List.replicate (2 * level) ' '

mutual

/-- A value as it is written at a level of indentation. -/
def write (level : Nat) : Json → Text
  | .null => "null".toList
  | .bool b => if b then "true".toList else "false".toList
  | .int n => Numeral.ofInt n
  | .float x => writeDouble x
  | .str s => writeString s
  | .arr [] => "[]".toList
  | .arr (item :: items) =>
    '[' :: newline (level + 1) ++ write (level + 1) item ++ writeItems (level + 1) items ++
      newline level ++ [']']
  | .obj [] => "\x7b\x7d".toList
  | .obj ((name, value) :: members) =>
    '\x7b' :: newline (level + 1) ++ writeString name ++ ": ".toList ++
      write (level + 1) value ++ writeMembers (level + 1) members ++ newline level ++ ['\x7d']

/-- The items of a list after the first one. -/
def writeItems (level : Nat) : List Json → Text
  | [] => []
  | item :: items => ',' :: newline level ++ write level item ++ writeItems level items

/-- The members of an object after the first one. -/
def writeMembers (level : Nat) : List (JsonString × Json) → Text
  | [] => []
  | (name, value) :: members =>
    ',' :: newline level ++ writeString name ++ ": ".toList ++ write level value ++
      writeMembers level members

end

/-- The text of a value, which ends with a line end. -/
def render (v : Json) : Except Numeral.Error Text :=
  if v.isWritable then .ok (write 0 v ++ ['\n']) else .error .unwritable

end ContractInterface.Json
