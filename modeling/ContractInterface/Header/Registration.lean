import ContractInterface.Text.Blank
import ContractInterface.Text.Numeral
import ContractInterface.Text.Scan
import ContractInterface.Text.Word

/-!
# Registered entries

A header registers its entry points with two macros, one for functions and one for procedures,
which give the name of the entry and the number by which it is called.
-/

namespace ContractInterface

/-- The two kinds of entry points. -/
inductive EntryKind where
  | function
  | procedure
  deriving DecidableEq, Repr

namespace EntryKind

/-- The name of a kind in documents. -/
def name : EntryKind → String
  | .function => "function"
  | .procedure => "procedure"

/-- The kind with a given name. -/
def ofName? : String → Option EntryKind
  | "function" => some .function
  | "procedure" => some .procedure
  | _ => none

/-- The macro that registers entries of a kind. -/
def macroName : EntryKind → String
  | .function => "REGISTER_USER_FUNCTION"
  | .procedure => "REGISTER_USER_PROCEDURE"

end EntryKind

/-- An entry point as it is registered. -/
structure Registration where
  kind : EntryKind
  name : String
  inputType : Nat
  deriving DecidableEq, Repr

namespace Registration

/-- The text after a character, which blanks may precede. -/
def afterMark? (c : Char) (t : Text) : Option Text :=
  Text.dropPrefix? [c] (Text.trimLeft t)

/-- The name and the digits of a registration of a kind. -/
def matcher (kind : EntryKind) : Matcher (Text × Text) := fun _ t => do
  let t ← Text.dropPrefix? kind.macroName.toList t
  let t ← afterMark? '(' t
  let (name, t) ← Text.takeIdent? (Text.trimLeft t)
  let t ← afterMark? ',' t
  let t := Text.trimLeft t
  let digits := t.takeWhile isDecimal
  if digits.isEmpty then none
  else
    let t ← afterMark? ')' (t.dropWhile isDecimal)
    let t ← afterMark? ';' t
    some ((name, digits), t)

/-- The registrations of a kind in textual order. -/
def ofKind (kind : EntryKind) (source : Text) : Except Numeral.Error (List Registration) :=
  (Text.scan (matcher kind) source).mapM fun (name, digits) => do
    return ⟨kind, String.ofList name, ← Numeral.read digits⟩

/-- All registrations of a header, functions first. -/
def all (source : Text) : Except Numeral.Error (List Registration) := do
  let functions ← ofKind .function source
  let procedures ← ofKind .procedure source
  return functions ++ procedures

end Registration

end ContractInterface
