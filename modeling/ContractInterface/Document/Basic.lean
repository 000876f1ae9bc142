import ContractInterface.Header.Registration
import ContractInterface.TypeDesc.Encode

/-!
# Interface documents

An interface document describes one contract: who it is, its entry points with the shapes and
sizes of their inputs and outputs, and where the description comes from.  The sides of an entry
are left open, so that a document can also hold sides that have not been checked.
-/

namespace ContractInterface

/-- The identity of a contract. -/
structure Contract where
  name : String
  index : Option Int
  publicKeyHex : Option String
  id : Option String
  deriving DecidableEq, Repr

/-- An entry point with the descriptions of its two sides.  The number of the call and the sizes
are what the document states; nothing but the compiler makes them natural numbers. -/
structure Entry (δ : Type) where
  kind : EntryKind
  name : String
  inputType : Int
  input : δ
  output : δ
  inputSize : Int
  outputSize : Int
  deriving DecidableEq, Repr

/-- Where a document comes from, and what went wrong on the way. -/
structure Provenance where
  source : Option String
  sourceRepo : Option String
  sourceRevision : Option String
  generatedAt : Option String
  generator : Option String
  generatorVersion : Option String
  warnings : List String
  deriving DecidableEq, Repr

/-- The description of the interface of a contract. -/
structure Document (δ : Type) where
  version : String
  contract : Contract
  entries : List (Entry δ)
  provenance : Option Provenance
  deriving DecidableEq, Repr

/-- The version of the document format. -/
def documentVersion : String := "0.1"

namespace Entry

variable {δ ε η : Type}

/-- Entries are ordered by the number of the call and then by name. -/
def le (a b : Entry δ) : Bool :=
  a.inputType < b.inputType || (a.inputType == b.inputType && a.name ≤ b.name)

/-- Replaces the sides of an entry, the input first. -/
def mapSides (f : δ → Except ε η) (e : Entry δ) : Except ε (Entry η) := do
  let input ← f e.input
  let output ← f e.output
  return { e with input, output }

/-- The JSON form of an entry. -/
def toJson (side : δ → Json) (e : Entry δ) : Json :=
  .obj [("kind", .text e.kind.name), ("name", .text e.name), ("inputType", .int e.inputType),
    ("input", side e.input), ("output", side e.output), ("inputSize", .int e.inputSize),
    ("outputSize", .int e.outputSize)]

end Entry

/-- The JSON form of the identity of a contract. -/
def Contract.toJson (c : Contract) : Json :=
  Json.ofPresent [("name", some (.text c.name)), ("contractIndex", c.index.map .int),
    ("contractPublicKeyHex", c.publicKeyHex.map .text), ("contractId", c.id.map .text)]

/-- The JSON form of a provenance; a list without warnings is left out. -/
def Provenance.toJson (p : Provenance) : Json :=
  Json.ofPresent [("source", p.source.map .text), ("sourceRepo", p.sourceRepo.map .text),
    ("sourceRevision", p.sourceRevision.map .text), ("generatedAt", p.generatedAt.map .text),
    ("generator", p.generator.map .text), ("generatorVersion", p.generatorVersion.map .text),
    ("warnings", if p.warnings.isEmpty then none else some (.arr (p.warnings.map .text)))]

namespace Document

variable {δ ε η : Type}

/-- The warnings of a document. -/
def warnings (d : Document δ) : List String :=
  (d.provenance.map Provenance.warnings).getD []

/-- The first entry with a given name. -/
def findEntry? (d : Document δ) (name : String) : Option (Entry δ) :=
  d.entries.find? fun e => e.name = name

/-- Replaces the sides of all entries, in order. -/
def mapSides (f : δ → Except ε η) (d : Document δ) : Except ε (Document η) := do
  let entries ← d.entries.mapM (Entry.mapSides f)
  return { d with entries }

/-- The JSON form of a document, given that of a side. -/
def toJsonWith (side : δ → Json) (d : Document δ) : Json :=
  Json.ofPresent [("qbiVersion", some (.text d.version)), ("contract", some d.contract.toJson),
    ("entries", some (.arr (d.entries.map (Entry.toJson side)))),
    ("meta", d.provenance.map Provenance.toJson)]

/-- The JSON form of a document. -/
def toJson (d : Document TypeDesc) : Json :=
  d.toJsonWith TypeDesc.toJson

end Document

end ContractInterface
