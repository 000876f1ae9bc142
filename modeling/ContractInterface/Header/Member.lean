import ContractInterface.Text.Blank
import ContractInterface.Text.Word

/-!
# Data members

A statement of a struct body declares data members if it has the form `Type name[length]…` or
`Type name, name, …`, possibly after access labels and before an initial value.  Methods, nested
types, static members and the like have no place in the layout and are skipped.
-/

namespace ContractInterface.Header

/-- The data members that a statement declares. -/
inductive Member where
  /-- One array member, with its lengths from the outermost to the innermost. -/
  | array (type name : Text) (lengths : List Text)
  /-- Members of one type. -/
  | plain (type : Text) (names : List Text)
  deriving DecidableEq, Repr

/-- What a statement contributes to the layout. -/
inductive Statement where
  | skipped
  | declares (m : Member)
  | unrecognized
  deriving DecidableEq, Repr

namespace Statement

/-! ### The declarator -/

/-- The words of access labels. -/
def accessWords : List String := ["public", "private", "protected"]

/-- What follows an access label at the front of a statement. -/
def afterLabel? (t : Text) : Option Text :=
  accessWords.findSome? fun word => do
    let rest ← Text.dropPrefix? word.toList t
    let rest ← Text.dropPrefix? [':'] (Text.trimLeft rest)
    some (Text.trimLeft rest)

/-- Drops up to a number of access labels from the front. -/
def dropLabels : Nat → Text → Text
  | 0, t => t
  | n + 1, t =>
    match afterLabel? t with
    | some rest => dropLabels n rest
    | none => t

/-- The text before a lone `=`, one that is not part of a comparison, given the character
before the text. -/
def beforeInitializer : Option Char → Text → Text
  | _, [] => []
  | before, c :: t =>
    if c = '=' && !before.any (fun b => b == '=' || b == '!' || b == '<' || b == '>') &&
        !Text.hasPrefix ['='] t then []
    else c :: beforeInitializer (some c) t

/-- A statement without access labels and initial value.  Each label takes characters off, so
there are no more labels than characters. -/
def declarator (statement : Text) : Text :=
  Text.trim (beforeInitializer none (dropLabels statement.length statement))

/-! ### Statements without data members -/

/-- The keywords that start a nested type or a member outside the layout. -/
def nonDataKeywords : List String :=
  ["struct", "class", "enum", "union",
    "static", "typedef", "using", "friend", "template", "constexpr"]

/-- Whether a word stands in a text between word boundaries, given the character before the
text. -/
def containsWord (word : Text) : Option Char → Text → Bool
  | _, [] => false
  | before, c :: t =>
    (!before.any isWord && (Text.dropKeyword? word (c :: t)).isSome) ||
      containsWord word (some c) t

/-- Whether a declarator declares no data member. -/
def isSkipped (t : Text) : Bool :=
  t.all (fun c => c == '{' || c == '}' || isBlank c) ||
    containsWord "operator".toList none t ||
    t.contains '(' ||
    Text.hasPrefix ['#'] t ||
    nonDataKeywords.any fun word => (Text.dropKeyword? word.toList t).isSome

/-- A declarator without a brace initializer at its end. -/
def dropBraceInitializer (t : Text) : Text :=
  match t.reverse with
  | '}' :: front =>
    match Text.cutAt? (fun c => c == '{' || c == '}') front with
    | some (_, '{', front) => Text.trim front.reverse
    | _ => t
  | _ => t

/-! ### Declarations -/

/-- The lengths between brackets that make up a whole text, given the length so far, last
character first, if the text starts inside brackets. -/
def lengths? : Option Text → Text → Option (List Text)
  | none, [] => some []
  | some _, [] => none
  | none, c :: t =>
    if isBlank c then lengths? none t
    else if c = '[' then lengths? (some []) t
    else none
  | some current, c :: t =>
    if c = ']' then (lengths? none t).map (Text.trim current.reverse :: ·)
    else lengths? (some (c :: current)) t

/-- The name and the lengths of an array member, from the end of its type on. -/
def arrayParts? (t : Text) : Option (Text × List Text) := do
  let t ← Text.afterBlanks? t
  let (name, t) ← Text.takeIdent? t
  match ← lengths? none t with
  | [] => none
  | lengths => some (name, lengths)

/-- The names of plain members, from the end of their type on. -/
def plainNames? (t : Text) : Option (List Text) := do
  let t ← Text.afterBlanks? t
  let names := (Text.splitWhere (· == ',') t).map Text.trim
  if names.all Text.isIdent then some names else none

/-- The shortest type, of at least one character, that leaves a text of the wanted form, and
what that form gives. -/
def afterType? {α : Type} (form : Text → Option α) : Text → Option (Text × α)
  | [] => none
  | c :: t =>
    match form t with
    | some a => some ([c], a)
    | none => (afterType? form t).map fun (type, a) => (c :: type, a)

/-- The data members that a declarator declares. -/
def member? (t : Text) : Option Member :=
  match afterType? arrayParts? t with
  | some (type, name, lengths) => some (.array type name lengths)
  | none => (afterType? plainNames? t).map fun (type, names) => .plain type names

/-- Reads a statement. -/
def ofText (statement : Text) : Statement :=
  let t := declarator statement
  if t.isEmpty || isSkipped t then .skipped
  else
    match member? (dropBraceInitializer t) with
    | some m => .declares m
    | none => .unrecognized

end Statement

end ContractInterface.Header
