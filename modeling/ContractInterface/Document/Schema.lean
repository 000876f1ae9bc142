import ContractInterface.Document.Path
import ContractInterface.Json.Display
import ContractInterface.Text.Digit
import ContractInterface.TypeDesc.Basic

/-!
# The shape of a document

A document must have the members that its parts need, with values of the right kind; members
that nobody asks for are ignored.  Every violation is reported with its path, in the order in
which the parts of the document are described.  A double without a fraction counts as an
integer.
-/

namespace ContractInterface.Schema

/-- A violation of the shape.  Its message may show a value that is too long to be written. -/
structure Violation where
  path : List PathStep
  message : Except Numeral.Error String
  deriving Repr

/-- A rule lists the violations of a value at a path. -/
abbrev Rule := List PathStep → Json → List Violation

/-! ### Kinds of values -/

/-- A kind of value that a rule can ask for. -/
inductive Kind where
  | object
  | array
  | string
  | integer
  deriving DecidableEq, Repr

/-- The name of a kind in messages. -/
def Kind.name : Kind → String
  | .object => "object"
  | .array => "array"
  | .string => "string"
  | .integer => "integer"

/-- Whether a value is of a kind. -/
def Kind.accepts : Kind → Json → Bool
  | .object, .obj _ => true
  | .array, .arr _ => true
  | .string, .str _ => true
  | .integer, .int _ => true
  | .integer, .float x => x.isIntegral
  | _, _ => false

/-- A violation at a path, if a condition fails. -/
def expect (ok : Bool) (path : List PathStep) (message : Except Numeral.Error String) :
    List Violation :=
  if ok then [] else [⟨path, message⟩]

/-- The message that shows a value and says what is wrong with it. -/
def complaint (v : Json) (wrong : String) : Except Numeral.Error String := do
  return (← v.shown) ++ wrong

/-- The value must be of a kind. -/
def ofKind (kind : Kind) : Rule := fun path v =>
  expect (kind.accepts v) path (complaint v (" is not of type '" ++ kind.name ++ "'"))

/-- Whether a value is a number below zero. -/
def isNegative : Json → Bool
  | .int n => n < 0
  | .float x => x.isNegative
  | _ => false

/-- The value must be an integer that is not negative. -/
def uint : Rule := fun path v =>
  ofKind .integer path v ++
    expect (!isNegative v) path (complaint v " is less than the minimum of 0")

/-- The value must be a string that is not empty. -/
def nonEmptyString : Rule := fun path v =>
  ofKind .string path v ++
    match v with
    | .str s => expect (!s.isEmpty) path (complaint v " should be non-empty")
    | _ => []

/-- Whether a text is 64 hexadecimal digits, possibly with a line end after them. -/
def isKeyText : JsonString → Bool
  | .text s =>
    let digits := s.toList.takeWhile isHex
    let rest := s.toList.dropWhile isHex
    digits.length == 64 && (rest.isEmpty || rest == ['\n'])
  | .broken _ => false

/-- The value must be a string of 64 hexadecimal digits. -/
def publicKey : Rule := fun path v =>
  ofKind .string path v ++
    match v with
    | .str s =>
      expect (isKeyText s) path (complaint v " does not match '^[0-9a-fA-F]\x7b64\x7d$'")
    | _ => []

/-- The value must be a given string. -/
def exactly (s : String) : Rule := fun path v =>
  expect (v == .text s) path (.ok (quoteString s ++ " was expected"))

/-- The value must be one of some strings. -/
def among (options : List String) : Rule := fun path v =>
  expect (options.any fun s => v == .text s) path
    (complaint v (" is not one of " ++ (Json.arr (options.map .text)).display))

/-! ### Parts of values -/

/-- An object must have members with the given names. -/
def required (names : List String) : Rule := fun path v =>
  match v with
  | .obj members =>
    names.flatMap fun (name : String) =>
      expect (Assignments.contains members name) path
        (.ok (quoteString name ++ " is a required property"))
  | _ => []

/-- The member of an object with a given name, if there is one, must follow a rule. -/
def property (name : String) (rule : Rule) : Rule := fun path v =>
  match v.member? name with
  | some value => rule (path ++ [.member name]) value
  | none => []

/-- The violations of the items of a list, given the number of items before them. -/
def itemsFrom (rule : Rule) (path : List PathStep) : Nat → List Json → List Violation
  | _, [] => []
  | i, item :: items => rule (path ++ [.position i]) item ++ itemsFrom rule path (i + 1) items

/-- The items of a list must follow a rule. -/
def items (rule : Rule) : Rule := fun path v =>
  match v with
  | .arr list => itemsFrom rule path 0 list
  | _ => []

/-- The value must follow all of some rules. -/
def allOf (rules : List Rule) : Rule := fun path v =>
  rules.flatMap fun rule => rule path v

/-! ### Type descriptions -/

/-- The names of the forms of type descriptions. -/
def typeNames : List String :=
  ["nodata", "u8", "u16", "u32", "u64", "i8", "i16", "i32", "i64",
    "bool", "m256i", "bytes", "array", "struct"]

/-- Whether an object is tagged with the given form. -/
def isTagged (members : Json.Members) (type : String) : Bool :=
  Assignments.get? members "type" == some (.text type)

mutual

/-- The violations of a type description: its form must be known, and each form asks for members
of its own. -/
def typeRef (path : List PathStep) : Json → List Violation
  | .obj members =>
    let v := Json.obj members
    required ["type"] path v ++
      property "type" (among typeNames) path v ++
      (if isTagged members "nodata" then property "expectedSize" uint path v else []) ++
      (if isTagged members "bytes" then
        required ["length"] path v ++ property "length" uint path v
      else []) ++
      (if isTagged members "array" then
        required ["length", "item"] path v ++ property "length" uint path v ++
          typeRefUnder "item" path members
      else []) ++
      (if isTagged members "struct" then
        required ["fields"] path v ++ fieldsUnder path members
      else [])
  | v => ofKind .object path v

/-- The violations of the description in the member with a given name. -/
def typeRefUnder (name : String) (path : List PathStep) : List (JsonString × Json) → List Violation
  | [] => []
  | (key, value) :: members =>
    if key = .text name then typeRef (path ++ [.member name]) value
    else typeRefUnder name path members

/-- The violations of the fields of a struct. -/
def fieldsUnder (path : List PathStep) : List (JsonString × Json) → List Violation
  | [] => []
  | (key, value) :: members =>
    if key = .text "fields" then
      let here := path ++ [.member "fields"]
      match value with
      | .arr list => fieldsFrom here 0 list
      | value => ofKind .array here value
    else fieldsUnder path members

/-- The violations of a list of fields, given the number of fields before them. -/
def fieldsFrom (path : List PathStep) : Nat → List Json → List Violation
  | _, [] => []
  | i, item :: items =>
    let here := path ++ [.position i]
    let violations :=
      match item with
      | .obj members =>
        required ["name", "typeRef"] here (.obj members) ++
          property "name" nonEmptyString here (.obj members) ++
          typeRefUnder "typeRef" here members
      | item => ofKind .object here item
    violations ++ fieldsFrom path (i + 1) items

end

/-! ### Documents -/

/-- The rule of an entry. -/
def entry : Rule :=
  allOf [ofKind .object, required ["kind", "name", "inputType", "input", "output"],
    property "kind" (among ["function", "procedure"]), property "name" nonEmptyString,
    property "inputType" uint, property "input" typeRef, property "output" typeRef,
    property "inputSize" uint, property "outputSize" uint]

/-- The rule of the identity of a contract. -/
def contract : Rule :=
  allOf [ofKind .object, required ["name"], property "name" nonEmptyString,
    property "contractIndex" uint, property "contractPublicKeyHex" publicKey,
    property "contractId" (ofKind .string)]

/-- The rule of a provenance. -/
def provenance : Rule :=
  allOf [ofKind .object, property "source" (ofKind .string),
    property "sourceRepo" (ofKind .string), property "sourceRevision" (ofKind .string),
    property "generatedAt" (ofKind .string), property "generator" (ofKind .string),
    property "generatorVersion" (ofKind .string),
    property "warnings" (allOf [ofKind .array, items (ofKind .string)])]

/-- The rule of a document. -/
def document : Rule :=
  allOf [ofKind .object, required ["qbiVersion", "contract", "entries"],
    property "qbiVersion" (exactly "0.1"), property "contract" contract,
    property "entries" (allOf [ofKind .array, items entry]), property "meta" provenance]

end ContractInterface.Schema
