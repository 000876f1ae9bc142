import ContractInterface.Expr.Postfix
import ContractInterface.Text.Scan

/-!
# Named constants

A header names an integer either by a `constexpr` declaration, whose expression ends at the
next semicolon, or by a `#define` line.  Definitions count in textual order, each may use the
names before it, and one whose expression has no value is passed over.
-/

namespace ContractInterface.Expr

/-- A definition as it stands in a header. -/
structure Definition where
  name : String
  expr : Text
  deriving DecidableEq, Repr

namespace Definition

/-- Whether a character can stand in the type of a `constexpr` declaration. -/
def isTypeChar (c : Char) : Bool :=
  isWord c || c == ':' || c == '<' || c == '>'

/-- The name that a `constexpr` declaration gives, from the text between the keyword and `=`:
a blank, one or more words of the type, and then the name. -/
def declaredName? (head : Text) : Option Text :=
  match head.head?.any isBlank, (Text.words head).reverse with
  | true, name :: _ :: _ => if Text.isIdent name then some name else none
  | _, _ => none

/-- A `constexpr` declaration at the front of a text. -/
def takeConstexpr? (t : Text) : Option (Definition × Text) := do
  let t ← Text.dropPrefix? "constexpr".toList t
  let inHead := fun c => isTypeChar c || isBlank c
  let name ← declaredName? (t.takeWhile inHead)
  let t ← Text.dropPrefix? ['='] (t.dropWhile inHead)
  let (expr, _, rest) ← Text.cutAt? (· == ';') t
  if expr.isEmpty then none
  else some (⟨String.ofList name, Text.trim expr⟩, rest)

/-- Drops the spaces and tabs in front, of which there must be one. -/
def afterSpaces? : Text → Option Text
  | [] => none
  | c :: t => if isSpaceOrTab c then some (t.dropWhile isSpaceOrTab) else none

/-- A `#define` line at the front of a text. -/
def takeDefine? (t : Text) : Option (Definition × Text) := do
  let t ← Text.dropPrefix? ['#'] (t.dropWhile isSpaceOrTab)
  let t ← Text.dropPrefix? "define".toList (t.dropWhile isSpaceOrTab)
  let t ← afterSpaces? t
  let (name, t) ← Text.takeIdent? t
  let t ← afterSpaces? t
  some (⟨String.ofList name, Text.trim (t.takeWhile (· != '\n'))⟩, t.dropWhile (· != '\n'))

/-- Whether a position is the start of a line, given the character before it. -/
def atLineStart (before : Option Char) : Bool :=
  before.all (· == '\n')

/-- A definition at a position. -/
def matcher : Matcher Definition := fun before t =>
  match takeConstexpr? t with
  | some found => some found
  | none => if atLineStart before then takeDefine? t else none

/-- The definitions in a text, in order. -/
def all (source : Text) : List Definition :=
  Text.scan matcher source

end Definition

/-- Adds a definition to a table, if its expression has a value there. -/
def define (known : Table Int) (d : Definition) : Except Numeral.Error (Table Int) := do
  match ← evaluate known d.expr with
  | some value => return known.insert d.name value
  | none => return known

/-- The constants of a header, on top of those known before it. -/
def constantTable (seed : Table Int) (source : Text) : Except Numeral.Error (Table Int) :=
  (Definition.all (Header.stripComments source)).foldlM define seed

end ContractInterface.Expr
