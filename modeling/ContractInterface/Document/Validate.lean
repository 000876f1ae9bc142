import ContractInterface.Document.Schema
import ContractInterface.TypeDesc.Decode
import ContractInterface.TypeDesc.Layout

/-!
# Validating a document

A document is valid if it has the right shape and every size that it declares is the size of the
side that it stands for.  The violations of the shape come first, ordered by the text of their
path; those of one path stay in order.  Errors show values, so no number in these may be too long to
be written.
-/

namespace ContractInterface.Document

/-- The two sides of an entry with the names of their sizes. -/
def sides : List (String × String) :=
  [("input", "inputSize"), ("output", "outputSize")]

/-- The errors in the size of a side.  A size that is no natural number and a side that describes
no type are not checked. -/
def checkSize (entry : Json) (path side sizeName : String) : Except Numeral.Error (List String) :=
  match (entry.member? sizeName).bind Json.nat? with
  | none => .ok []
  | some declared =>
    match TypeDesc.decode (path ++ "." ++ side) (entry.memberOrNull side) with
    | .error _ => .ok []
    | .ok type =>
      if type.size = declared then .ok []
      else do
        Numeral.requireWritable type.size
        Numeral.requireWritable declared
        return [path ++ "." ++ sizeName ++ " expected " ++ Numeral.render type.size ++ ", got " ++
          Numeral.render declared]

/-- The errors in the sizes of an entry. -/
def checkSizes (path : String) (entry : Json) : Except Numeral.Error (List String) := do
  return (← sides.mapM fun (side, sizeName) => checkSize entry path side sizeName).flatten

/-- The errors in the sizes of a list of values, of which those that are objects are entries,
given the number of values before them. -/
def checkEntriesFrom : Nat → List Json → Except Numeral.Error (List String)
  | _, [] => .ok []
  | i, entry :: entries => do
    let errors ←
      match entry with
      | .obj _ => checkSizes ("entries[" ++ toString i ++ "]") entry
      | _ => .ok []
    return errors ++ (← checkEntriesFrom (i + 1) entries)

/-- The errors in the sizes of a document. -/
def sizeErrors (v : Json) : Except Numeral.Error (List String) :=
  match v.member? "entries" with
  | some (.arr entries) => checkEntriesFrom 0 entries
  | _ => .ok []

/-- The note on a side whose size is not checked although it is declared: the side describes no
type, which its shape already tells. -/
def skippedSize? (entry : Json) (path side sizeName : String) : Option String :=
  match (entry.member? sizeName).bind Json.nat?,
      TypeDesc.decode (path ++ "." ++ side) (entry.memberOrNull side) with
  | some _, .error e =>
    some ("Skipping size check for " ++ path ++ "." ++ side ++ ": " ++ e.message)
  | _, _ => none

/-- The notes on the sizes of a document that are not checked. -/
def skippedSizes (v : Json) : List String :=
  match v.member? "entries" with
  | some (.arr entries) =>
    entries.zipIdx.flatMap fun (entry, i) =>
      match entry with
      | .obj _ =>
        sides.filterMap fun (side, sizeName) =>
          skippedSize? entry ("entries[" ++ toString i ++ "]") side sizeName
      | _ => []
  | _ => []

/-- The errors in the shape of a document. -/
def shapeErrors (v : Json) : Except Numeral.Error (List String) := do
  let violations ← (Schema.document [] v).mapM fun e => do
    return (PathStep.format e.path, ← e.message)
  return (violations.mergeSort fun a b => a.1 ≤ b.1).map fun (path, message) =>
    path ++ ": " ++ message

/-- All errors of a document. -/
def validate (v : Json) : Except Numeral.Error (List String) := do
  return (← shapeErrors v) ++ (← sizeErrors v)

end ContractInterface.Document
