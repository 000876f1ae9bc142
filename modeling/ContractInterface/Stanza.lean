import ContractInterface.Table
import ContractInterface.Text.Blank
import ContractInterface.Text.Lines
import ContractInterface.Text.Numeral
import ContractInterface.Text.Word

/-!
# The list of contracts

The contracts of a code base are listed in one file as stanzas of directives.  A line that
defines a contract index starts a stanza; in it the last state type gives the name of the
contract and the last inclusion its header.  Incomplete stanzas are left out.
-/

namespace ContractInterface

/-- A contract as it is listed. -/
structure Stanza where
  name : String
  index : Nat
  header : String
  deriving DecidableEq, Repr

namespace Stanza

/-- What a line of the list contributes. -/
inductive Line where
  | index (digits : Text)
  | stateType (name : Text)
  | header (path : Text)
  | other
  deriving DecidableEq, Repr

/-- The text after a directive at the start of a line and the blanks that follow it. -/
def afterDirective? (directive : String) (line : Text) : Option Text := do
  let t ← Text.dropPrefix? directive.toList (Text.trimLeft line)
  Text.afterBlanks? t

/-- Whether a character can stand in the name of a contract index. -/
def isIndexNameChar (c : Char) : Bool :=
  c.isUpper || c.isDigit || c == '_'

/-- The digits of a line that defines a contract index. -/
def indexLine? (line : Text) : Option Text := do
  let t ← afterDirective? "#define" line
  let front ← Text.dropSuffix? "_CONTRACT_INDEX".toList (t.takeWhile isIndexNameChar)
  let value ← Text.afterBlanks? (t.dropWhile isIndexNameChar)
  let digits := Text.trimRight value
  if front.isEmpty || digits.isEmpty || !digits.all isDecimal then none else some digits

/-- The name on a line that defines the state type. -/
def stateTypeLine? (line : Text) : Option Text := do
  let t ← afterDirective? "#define" line
  let t ← Text.dropPrefix? "CONTRACT_STATE_TYPE".toList t
  let name := Text.trimRight (← Text.afterBlanks? t)
  if Text.isIdent name then some name else none

/-- The path on a line that includes a contract header, without its directory. -/
def headerLine? (line : Text) : Option Text := do
  let t ← afterDirective? "#include" line
  let t ← Text.dropPrefix? "\"contracts/".toList t
  let (path, _, rest) ← Text.cutAt? (· == '"') t
  if path.isEmpty || !rest.all isBlank then none else some path

/-- Reads a line of the list. -/
def Line.ofText (line : Text) : Line :=
  match indexLine? line, stateTypeLine? line, headerLine? line with
  | some digits, _, _ => .index digits
  | none, some name, _ => .stateType name
  | none, none, some path => .header path
  | none, none, none => .other

/-- A stanza while it is read. -/
structure Draft where
  index : Option Nat
  name : Option Text
  header : Option Text
  deriving DecidableEq, Repr

/-- The state before the first stanza. -/
def Draft.empty : Draft := ⟨none, none, none⟩

/-- The stanza that is complete, if it is. -/
def Draft.complete? (d : Draft) : Option Stanza := do
  some ⟨String.ofList (← d.name), ← d.index, String.ofList (← d.header)⟩

/-- The complete stanzas from the given lines on. -/
def collect (d : Draft) : List Line → Except Numeral.Error (List Stanza)
  | [] => .ok d.complete?.toList
  | .index digits :: lines => do
    let index ← Numeral.read digits
    let rest ← collect ⟨some index, none, none⟩ lines
    return d.complete?.toList ++ rest
  | .stateType name :: lines => collect { d with name := some name } lines
  | .header path :: lines => collect { d with header := some path } lines
  | .other :: lines => collect d lines

/-- The complete stanzas of a list of contracts, in order. -/
def all (source : Text) : Except Numeral.Error (List Stanza) :=
  collect Draft.empty ((Text.lines source).map Line.ofText)

/-- The name of a header without the directories in front of it. -/
def baseName (header : String) : String :=
  String.ofList (header.toList.reverse.takeWhile (· != '/')).reverse

/-- The contract indices by the base names of their headers. -/
def indexTable (stanzas : List Stanza) : Table Nat :=
  Assignments.ofList (stanzas.map fun s => (baseName s.header, s.index))

end Stanza

end ContractInterface
