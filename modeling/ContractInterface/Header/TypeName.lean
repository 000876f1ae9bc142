import ContractInterface.Text.Blank

/-!
# Type names

A declared type is looked up by its name without a leading `const`, without an elaborating
`struct` or `class`, without a reference mark, and without the library namespace.
-/

namespace ContractInterface.Header

/-- Drops a beginning, if the text has it. -/
def dropFront (front : String) (t : Text) : Text :=
  (Text.dropPrefix? front.toList t).getD t

/-- Drops `struct` or `class` in front of a name. -/
def dropElaboration (t : Text) : Text :=
  match Text.dropPrefix? "struct ".toList t with
  | some rest => rest
  | none => dropFront "class " t

/-- Drops a reference mark and the blanks before it. -/
def dropReference (t : Text) : Text :=
  match Text.dropSuffix? ['&'] t with
  | some front => Text.trimRight front
  | none => t

/-- The name under which a declared type is looked up. -/
def typeName (declared : Text) : Text :=
  dropFront "QPI::" (dropReference (dropElaboration (dropFront "const " (Text.collapse declared))))

end ContractInterface.Header
