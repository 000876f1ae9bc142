import ContractInterface.Table
import ContractInterface.Text.Blank
import ContractInterface.Text.Scan
import ContractInterface.Text.Word

/-!
# Type aliases

An alias is declared by `typedef Target Name;` or by `using Name = Target;`, which must start
the text of its line and must be followed by nothing else on the line where it ends.  A later
declaration of a name replaces an earlier one, and `using` replaces `typedef`.
-/

namespace ContractInterface.Header

/-- What follows a declaration whose semicolon has been taken off, from the end of its line on.
Only blanks may stand before the end of the line. -/
def afterLine? (t : Text) : Option Text :=
  let rest := t.dropWhile isBlank
  if rest.isEmpty then some []
  else
    (Text.cutAtLast? (· == '\n') (t.takeWhile isBlank)).map fun (_, newline, blanks) =>
      newline :: blanks ++ rest

/-- A keyword at the start of a line, blanks aside, and the statement that it starts: the text
before the semicolon, and the text from the end of the line on. -/
def takeStatement? (keyword : String) (before : Option Char) (t : Text) :
    Option (Text × Text) := do
  if before.any (· != '\n') then none
  else
    let t ← Text.dropPrefix? keyword.toList (Text.trimLeft t)
    let (statement, _, rest) ← Text.cutAt? (· == ';') t
    some (statement, ← afterLine? rest)

/-- The name and the target of a `typedef` from the text after the keyword.  The name is the
last word; the target is all before it, and may only be missing after three blanks. -/
def typedefParts? (t : Text) : Option (String × Text) :=
  let t := Text.trimRight t
  let front := Text.dropEndWhile (fun c => !isBlank c) t
  let name := t.drop front.length
  let target := Text.trim front
  if front.head?.any isBlank && Text.isIdent name && (!target.isEmpty || 3 ≤ front.length) then
    some (String.ofList name, target)
  else none

/-- The name and the target of a `using` declaration from the text after the keyword. -/
def usingParts? (t : Text) : Option (String × Text) := do
  let t ← Text.afterBlanks? t
  let (name, t) ← Text.takeIdent? t
  let target ← Text.dropPrefix? ['='] (Text.trimLeft t)
  if target.isEmpty then none else some (String.ofList name, Text.trim target)

/-- An alias declared with a keyword, at the start of a line. -/
def aliasMatcher (keyword : String) (parts? : Text → Option (String × Text)) :
    Matcher (String × Text) := fun before t => do
  let (statement, rest) ← takeStatement? keyword before t
  some (← parts? statement, rest)

/-- The targets of the aliases that a header declares. -/
def aliasTable (source : Text) : Table Text :=
  Assignments.ofList
    (Text.scan (aliasMatcher "typedef" typedefParts?) source ++
      Text.scan (aliasMatcher "using" usingParts?) source)

end ContractInterface.Header
