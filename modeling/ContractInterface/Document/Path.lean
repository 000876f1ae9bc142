import ContractInterface.Text.Numeral

/-!
# Paths in a document

A path leads from the root of a document to a value in it.  Members are joined by points, and
the position in a list stands in brackets.
-/

namespace ContractInterface

/-- A step on a path. -/
inductive PathStep where
  | member (name : String)
  | position (n : Int)
  /-- A truth value in the place of a position. -/
  | flag (b : Bool)
  deriving DecidableEq, Repr

namespace PathStep

/-- Adds a step to the text of a path. -/
def append (text : String) : PathStep → String
  | .member name => if text.isEmpty then name else text ++ "." ++ name
  | .position n => text ++ "[" ++ Numeral.render n ++ "]"
  | .flag b => text ++ (if b then "[True]" else "[False]")

/-- The text of a path; that of the root is `document`. -/
def format (path : List PathStep) : String :=
  let text := path.foldl append ""
  if text.isEmpty then "document" else text

end PathStep

end ContractInterface
