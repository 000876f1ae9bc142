import ContractInterface.Text.Quoted

/-!
# JSON strings

A JSON text can spell the halves of a UTF-16 pair one by one, and so a half that stands alone.
No character corresponds to it, so a JSON string is a text only if it has no such half.
-/

namespace ContractInterface

/-- A code point of a JSON string: a character, or half of a UTF-16 pair. -/
inductive CodePoint where
  | char (c : Char)
  | half (unit : Nat)
  deriving DecidableEq, Repr

/-- The character of a code point, if it is one. -/
def CodePoint.char? : CodePoint → Option Char
  | .char c => some c
  | .half _ => none

/-- A JSON string: a text, or code points that are not all characters. -/
inductive JsonString where
  | text (s : String)
  | broken (points : List CodePoint)
  deriving DecidableEq, Inhabited, Repr

namespace JsonString

instance : Coe String JsonString := ⟨text⟩

/-- The characters of code points, if all of them are characters. -/
def chars? : List CodePoint → Option Text
  | [] => some []
  | .char c :: points => (chars? points).map (c :: ·)
  | .half _ :: _ => none

/-- The string with given code points. -/
def ofPoints (points : List CodePoint) : JsonString :=
  match chars? points with
  | some t => text (String.ofList t)
  | none => broken points

/-- The code points of a string. -/
def points : JsonString → List CodePoint
  | text s => s.toList.map .char
  | broken points => points

/-- Whether a string has no code points. -/
def isEmpty (s : JsonString) : Bool :=
  s.points.isEmpty

/-- The nearest text: a half is replaced by the character for what cannot be shown. -/
def toText : JsonString → String
  | text s => s
  | broken points =>
    String.ofList (points.map fun p => p.char?.getD (Char.ofNat 0xfffd))

/-- A code point as it stands between the given quotes. -/
def quotePoint (quote : Char) : CodePoint → Text
  | .char c => Text.quoteChar quote c
  | .half unit => '\\' :: 'u' :: Text.hexDigits 4 unit

/-- A string between quotes. -/
def quoted (s : JsonString) : String :=
  let quote := Text.quoteMark (s.points.filterMap CodePoint.char?)
  String.ofList (quote :: s.points.flatMap (quotePoint quote) ++ [quote])

/-! ### Texts among the strings -/

@[simp]
theorem chars?_map_char (t : Text) :
  chars? (t.map .char) = some t
  := by
  induction t with
  | nil => rfl
  | cons c t ih => simp [chars?, ih]

@[simp]
theorem ofPoints_map_char (t : Text) :
  ofPoints (t.map .char) = text (String.ofList t)
  := by
  simp [ofPoints]

end JsonString

end ContractInterface
