import ContractInterface.Expr.Constant
import ContractInterface.Header.Alias
import ContractInterface.Header.Catalog
import ContractInterface.Header.Member
import ContractInterface.Header.Statement
import ContractInterface.Header.StructBody
import ContractInterface.Header.TypeName
import ContractInterface.Memo

/-!
# Resolving declared types

A declared type is looked up in the catalog, then among the aliases of the header, then among its
structs.  What cannot be resolved becomes a placeholder with a warning, so only a numeral that is
too long stops a resolution.

Types refer to other types: an array to its item, an alias to its target, a struct to the types
of its members.  One step of resolution takes the resolution of those types as an argument, and
`resolveWithin` iterates the step to a given depth.  Along a chain of references every alias and
every struct occurs at most once, since a second occurrence is cut, and between two of them the
text gets shorter; so `Scope.depth` is never exceeded.
-/

namespace ContractInterface.Header

/-- What the declared types of one header may refer to. -/
structure Scope where
  source : Text
  constants : Table Int
  aliases : Table Text
  deriving Repr

/-- What a resolver has learned so far. -/
structure ResolverState where
  memo : Memo TypeDesc
  /-- The aliases that are being expanded. -/
  expanding : List String
  /-- The warnings in the order in which they arose. -/
  warnings : List String
  deriving DecidableEq, Repr

/-- A resolver at its start. -/
def ResolverState.start : ResolverState := ⟨Memo.empty, [], []⟩

/-- Why a resolution stops. -/
inductive ResolveError where
  | numeral (cause : Numeral.Error)
  /-- The given depth was exceeded. -/
  | tooDeep
  deriving DecidableEq, Repr

/-- A resolution: it changes what is known, also when it stops. -/
abbrev Resolution (α : Type) := ExceptT ResolveError (StateM ResolverState) α

namespace Resolution

variable {α : Type}

/-- A computation that may meet a numeral that is too long. -/
def ofNumeral (x : Except Numeral.Error α) : Resolution α :=
  match x with
  | .ok a => pure a
  | .error e => throw (.numeral e)

/-- Records a warning. -/
def warn (message : String) : Resolution Unit :=
  modify fun s => { s with warnings := s.warnings ++ [message] }

/-- Records a warning about a type and stands in the placeholder for it. -/
def giveUp (message : String) : Resolution TypeDesc := do
  warn message
  return .placeholder

/-- Runs a resolution and then changes the state, also when the resolution stops. -/
def andThen (x : Resolution α) (cleanup : ResolverState → ResolverState) : Resolution α :=
  fun s =>
    let (result, s) := StateT.run (ExceptT.run x) s
    (result, cleanup s)

/-- Works on the memo. -/
def onMemo (f : Memo TypeDesc → α × Memo TypeDesc) : Resolution α :=
  modifyGet fun s =>
    let (a, memo) := f s.memo
    (a, { s with memo })

end Resolution

open Resolution

/-! ### One step -/

/-- Resolves a length that stands in a declaration. -/
def Scope.length (scope : Scope) (token : Text) : Resolution (Option Nat) :=
  ofNumeral (Expr.resolveLength scope.constants token)

/-- The shape of a type that the catalog knows. -/
def resolveCatalog (scope : Scope) (resolve : Text → Resolution TypeDesc) :
    CatalogType → Resolution TypeDesc
  | .fixedArray item length => do
    match ← scope.length length with
    | none => giveUp ("Could not resolve Array length token: " ++ String.ofList length)
    | some n => return .array n (← resolve item)
  | .bitArray bits => do
    match ← scope.length bits with
    | none => giveUp ("Could not resolve BitArray length token: " ++ String.ofList bits)
    | some n => return CatalogType.packedBits n
  | .integerArray signed width length => do
    let n ← ofNumeral (Numeral.read length)
    return .array n (.scalar (CatalogType.integerScalar signed width))
  | .idArray length => return .array (← ofNumeral (Numeral.read length)) .m256i
  | .bitCount length => return CatalogType.packedBits (← ofNumeral (Numeral.read length))
  | .primitive type => return type
  | .aggregate type => return type
  | .proposalData => return .bytes CatalogType.proposalSize

/-- The lengths of an array member, or nothing with a warning at the first one that has no
value. -/
def resolveLengths (scope : Scope) : List Text → Resolution (Option (List Nat))
  | [] => return some []
  | token :: tokens => do
    match ← scope.length token with
    | none =>
      warn ("Could not resolve array length token: " ++ String.ofList token)
      return none
    | some n => return (← resolveLengths scope tokens).map (n :: ·)

/-- The fields that a member declaration adds to its struct. -/
def resolveMember (scope : Scope) (resolve : Text → Resolution TypeDesc) :
    Member → Resolution (List (JsonString × TypeDesc))
  | .array type name lengths => do
    match ← resolveLengths scope lengths with
    | none => return []
    | some ns =>
      let item ← resolve type
      return [(String.ofList name, ns.foldr TypeDesc.array item)]
  | .plain type names => do
    let t ← resolve type
    return names.map fun name => (String.ofList name, t)

/-- The fields that a statement adds to its struct. -/
def resolveStatement (scope : Scope) (resolve : Text → Resolution TypeDesc) (statement : Text) :
    Resolution (List (JsonString × TypeDesc)) :=
  match Statement.ofText statement with
  | .skipped => return []
  | .declares m => resolveMember scope resolve m
  | .unrecognized => do
    warn ("Unrecognized field statement: " ++ String.ofList statement)
    return []

/-- The fields that a list of statements adds to its struct. -/
def resolveStatements (scope : Scope) (resolve : Text → Resolution TypeDesc) :
    List Text → Resolution (List (JsonString × TypeDesc))
  | [] => return []
  | statement :: rest => do
    let fields ← resolveStatement scope resolve statement
    return fields ++ (← resolveStatements scope resolve rest)

/-- The struct with a given body. -/
def resolveBody (scope : Scope) (resolve : Text → Resolution TypeDesc) (body : Text) :
    Resolution TypeDesc := do
  return .struct (← resolveStatements scope resolve (statements body))

/-- The struct that the header declares under a name.  A struct that is being resolved already
contains itself and is cut. -/
def resolveStructWith (scope : Scope) (resolve : Text → Resolution TypeDesc) (name : String) :
    Resolution (Option TypeDesc) := do
  match ← onMemo (·.get name) with
  | some type => return some type
  | none =>
    match structBody? scope.source name.toList with
    | none => return none
    | some body =>
      if ← onMemo (·.begin? name) then
        let type ←
          try resolveBody scope resolve body
          catch e =>
            modify fun s => { s with memo := s.memo.abandon name }
            throw e
        modify fun s => { s with memo := s.memo.put name type }
        return some type
      else
        return some (← giveUp
          ("Recursive struct reference: " ++ name ++ " (treated as bytes[0])"))

/-- The type that an alias stands for.  An alias that is being expanded already refers to itself
and is cut. -/
def resolveAliasWith (resolve : Text → Resolution TypeDesc) (name : String) (target : Text) :
    Resolution TypeDesc := do
  if (← get).expanding.contains name then
    giveUp ("Recursive type alias: " ++ name ++ " (treated as bytes[0])")
  else
    modify fun s => { s with expanding := name :: s.expanding }
    (resolve target).andThen fun s => { s with expanding := s.expanding.filter (· != name) }

/-- One step in the resolution of a declared type. -/
def resolveStep (scope : Scope) (resolve : Text → Resolution TypeDesc) (declared : Text) :
    Resolution TypeDesc := do
  let text := typeName declared
  let name := String.ofList text
  match CatalogType.ofName? text with
  | some known => resolveCatalog scope resolve known
  | none =>
    match (scope.aliases.get? name).filter (fun target => typeName target != text) with
    | some target => resolveAliasWith resolve name target
    | none =>
      match ← resolveStructWith scope resolve name with
      | some type => return type
      | none => giveUp ("Unknown type: " ++ name ++ " (treated as bytes[0])")

/-! ### Iterating the step -/

/-- Resolves a declared type, following at most a number of references. -/
def resolveWithin (scope : Scope) : Nat → Text → Resolution TypeDesc
  | 0, _ => throw .tooDeep
  | depth + 1, declared => resolveStep scope (resolveWithin scope depth) declared

/-- The length of the longest text in which a declared type of a header can stand, other than
the one that is asked for. -/
def Scope.longest (scope : Scope) : Nat :=
  scope.aliases.foldl (fun n (_, target) => max n target.length) scope.source.length

/-- A number of references that no chain of resolutions exceeds, when it starts from a text of
the given length: between the aliases and structs on the chain, each of which occurs once and
the latter of which are pieces of the source, an item type is shorter than its array. -/
def Scope.depth (scope : Scope) (length : Nat) : Nat :=
  (scope.aliases.length + (scope.source.length + 1) * (scope.source.length + 1) + 1) *
    (max scope.longest length + 2)

/-- Resolves a declared type. -/
def Scope.resolve (scope : Scope) (declared : Text) : Resolution TypeDesc :=
  resolveWithin scope (scope.depth declared.length) declared

/-- The struct that the header declares under a name. -/
def Scope.resolveStruct (scope : Scope) (name : String) : Resolution (Option TypeDesc) :=
  resolveStructWith scope (resolveWithin scope (scope.depth 0)) name

/-- The struct with a given body. -/
def Scope.resolveFields (scope : Scope) (body : Text) : Resolution TypeDesc :=
  resolveBody scope (resolveWithin scope (scope.depth body.length)) body

end ContractInterface.Header
