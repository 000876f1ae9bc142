import ContractInterface.Log.Basic
import ContractInterface.Text.Numeral

/-!
# Progress

A long run counts the headers it compiles, their entries and their warnings, and keeps a stack
of the operations it is in.  Entering and leaving an operation or a header is recorded.
-/

namespace ContractInterface

/-- What has been counted, and the operations that have been entered, outermost first. -/
structure Progress where
  headers : Nat
  entries : Int
  warnings : Int
  operations : List String
  deriving DecidableEq, Repr

namespace Progress

/-- The progress at the start of a run. -/
def start : Progress := ⟨0, 0, 0, []⟩

/-- What can be entered: an operation, or a header with the number of entries before it. -/
inductive Frame where
  | operation (name : String)
  | header (name : String) (entriesBefore : Int)
  deriving DecidableEq, Repr

/-- Enters an operation. -/
def enterOperation (p : Progress) (name : String) : Frame × Progress × LogRecord :=
  (.operation name, { p with operations := p.operations ++ [name] },
    ⟨.debug, "Starting operation: " ++ name⟩)

/-- Enters a header. -/
def enterHeader (p : Progress) (name : String) : Frame × Progress × LogRecord :=
  let p := { p with headers := p.headers + 1 }
  (.header name p.entries, p,
    ⟨.debug, "Compiling header #" ++ toString p.headers ++ ": " ++ name⟩)

/-- Leaves what was entered last; a failure is recorded with its message. -/
def leave (p : Progress) (clock : Clock) (frame : Frame) (failure : Option String) :
    Progress × LogRecord :=
  match frame, failure with
  | .operation name, none =>
    ({ p with operations := p.operations.dropLast },
      ⟨.debug, "Completed operation: " ++ name ++ " in " ++ clock.elapsed ++ "s"⟩)
  | .operation name, some message =>
    ({ p with operations := p.operations.dropLast },
      ⟨.error, "Failed operation: " ++ name ++ " after " ++ clock.elapsed ++ "s: " ++ message⟩)
  | .header name entriesBefore, none =>
    (p, ⟨.debug, "Header #" ++ toString p.headers ++ " (" ++ name ++ ") compiled in " ++
      clock.elapsed ++ "s (" ++ Numeral.render (p.entries - entriesBefore) ++ " entries)"⟩)
  | .header name _, some message =>
    (p, ⟨.error, "Header " ++ name ++ " failed after " ++ clock.elapsed ++ "s: " ++ message⟩)

/-- Counts compiled entries. -/
def countEntries (p : Progress) (n : Int) : Progress :=
  { p with entries := p.entries + n }

/-- Counts warnings. -/
def countWarnings (p : Progress) (n : Int) : Progress :=
  { p with warnings := p.warnings + n }

/-- The summary of a run. -/
def summary (p : Progress) (clock : Clock) : LogRecord :=
  ⟨.info, "Processing complete: " ++ toString p.headers ++ " headers, " ++
    Numeral.render p.entries ++ " entries, " ++ Numeral.render p.warnings ++ " warnings in " ++
    clock.elapsed ++ "s (avg: " ++ clock.elapsed ++ "s/header)"⟩

/-- The memory in use. -/
def memoryUsage (clock : Clock) : LogRecord :=
  ⟨.debug, "Memory usage: " ++ clock.memory ++ " MB"⟩

/-- The operations that a run is in. -/
def context (p : Progress) : String :=
  if p.operations.isEmpty then "idle" else " > ".intercalate p.operations

end Progress

end ContractInterface
