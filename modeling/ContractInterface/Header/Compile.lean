import ContractInterface.Document.Basic
import ContractInterface.Header.Resolver
import ContractInterface.TypeDesc.Layout

/-!
# Compiling a header

A header is compiled into an interface document.  Every registered entry has an input struct and
an output struct named after it; both are resolved and laid out, and a side that has no struct,
or one without fields, is described as a side without data.  The entries are then ordered.
-/

namespace ContractInterface

/-- Who a contract is and where its header comes from. -/
structure CompileOptions where
  contractName : String
  contractIndex : Option Int
  contractPublicKeyHex : Option String
  sourcePath : Option String
  sourceRepo : Option String
  sourceRevision : Option String
  generatorVersion : Option String
  /-- The time to be recorded, if one is. -/
  generatedAt : Option String
  deriving DecidableEq, Repr

/-- The name of the program in documents. -/
def generatorName : String := "qbi-header-compiler"

namespace Header

open Resolution

/-- The description of a side whose struct has the given shape: a struct without fields holds no
data, and a side without data records the size that it occupies. -/
def describeSide (type : TypeDesc) : TypeDesc :=
  match type with
  | .struct [] | .nodata _ => .nodata (some type.size)
  | _ => type

/-- Reports the padding of a struct. -/
def reportPadding : TypeDesc → Except Numeral.Error Int
  | .struct fields => Placement.reportPadding (TypeDesc.placements fields)
  | _ => .ok 0

/-- The description and the size of one side of an entry, given the name of its struct. -/
def resolveSide (scope : Scope) (name : String) : Resolution (TypeDesc × Nat) := do
  let type := (← scope.resolveStruct name).getD (.nodata none)
  let _ ← ofNumeral (reportPadding type)
  return (describeSide type, type.size)

/-- Compiles a registered entry.  Its sizes are reported, so they must be short enough to be
written. -/
def compileEntry (scope : Scope) (r : Registration) : Resolution (Entry TypeDesc) := do
  let (input, inputSize) ← resolveSide scope (r.name ++ "_input")
  let (output, outputSize) ← resolveSide scope (r.name ++ "_output")
  ofNumeral (Numeral.requireWritable inputSize)
  ofNumeral (Numeral.requireWritable outputSize)
  return { kind := r.kind, name := r.name, inputType := r.inputType,
           input, output, inputSize, outputSize }

/-- Compiles registered entries one after another. -/
def compileEntries (scope : Scope) : List Registration → Resolution (List (Entry TypeDesc))
  | [] => return []
  | r :: rs => do
    let e ← compileEntry scope r
    return e :: (← compileEntries scope rs)

/-- What a header declares: the constants, aliases and structs that its types may refer to, and
the entries that it registers. -/
structure Outline where
  scope : Scope
  registrations : List Registration
  deriving Repr

/-- The outline of a header, given the constants known before it. -/
def outline (seed : Table Int) (header : Text) : Except Numeral.Error Outline := do
  let source := stripComments header
  let constants ← Expr.constantTable seed source
  let registrations ← Registration.all source
  return ⟨{ source, constants, aliases := aliasTable source }, registrations⟩

/-- The wording of what an outline has. -/
def Outline.summary (o : Outline) : String :=
  toString o.scope.constants.length ++ " constants, " ++ toString o.scope.aliases.length ++
    " aliases, " ++ toString o.registrations.length ++ " registered entries"

/-- The provenance of a compiled document. -/
def provenanceOf (options : CompileOptions) (warnings : List String) : Provenance :=
  { source := options.sourcePath
    sourceRepo := options.sourceRepo
    sourceRevision := options.sourceRevision
    generatedAt := options.generatedAt
    generator := some generatorName
    generatorVersion := options.generatorVersion
    warnings }

/-- The document of an outline, and the memo of the structs that were resolved for it. -/
def Outline.compile (options : CompileOptions) (o : Outline) :
    Except ResolveError (Document TypeDesc × Memo TypeDesc) := do
  let (entries, state) := (compileEntries o.scope o.registrations).run.run ResolverState.start
  return ({ version := documentVersion
            contract := ⟨options.contractName, options.contractIndex,
              options.contractPublicKeyHex, none⟩
            entries := (← entries).mergeSort Entry.le
            provenance := some (provenanceOf options state.warnings) }, state.memo)

/-- Compiles a header, given the constants known before it. -/
def compile (options : CompileOptions) (seed : Table Int) (header : Text) :
    Except ResolveError (Document TypeDesc) := do
  let o ← (outline seed header).mapError .numeral
  return (← o.compile options).1

/-- The wording of an error that stops a compilation. -/
def ResolveError.message : ResolveError → String
  | .numeral cause => cause.message
  | .tooDeep => "type references are nested too deeply"

end Header

/-- The notice that a compiled document has warnings. -/
def Document.notice? {δ : Type} (d : Document δ) : Option String :=
  if d.warnings.isEmpty then none
  else some (d.contract.name ++ ": " ++ toString d.warnings.length ++
    " resolution warnings; affected fields were dropped or sized as bytes[0]")

end ContractInterface
