import ContractInterface.Json.Display

/-!
# Memo of resolved structs

A memo keeps what has been resolved under a name, counts how often it was asked in vain, and
marks the names that are being resolved, so that a struct which contains itself is noticed.
-/

namespace ContractInterface

/-- A memo of values by name. -/
structure Memo (α : Type) where
  /-- What has been resolved. -/
  entries : Table α
  /-- The names that are being resolved. -/
  inProgress : List String
  /-- How often a lookup found something. -/
  hits : Nat
  /-- How often a lookup found nothing. -/
  misses : Nat
  deriving DecidableEq, Repr

namespace Memo

variable {α : Type}

/-- The memo at its start. -/
def empty : Memo α := ⟨[], [], 0, 0⟩

/-- Looks a name up and counts the lookup. -/
def get (memo : Memo α) (name : String) : Option α × Memo α :=
  match memo.entries.get? name with
  | some value => (some value, { memo with hits := memo.hits + 1 })
  | none => (none, { memo with misses := memo.misses + 1 })

/-- Marks a name as being resolved; tells whether it was not marked before. -/
def begin? (memo : Memo α) (name : String) : Bool × Memo α :=
  if memo.inProgress.contains name then (false, memo)
  else (true, { memo with inProgress := name :: memo.inProgress })

/-- Removes the mark of a name. -/
def abandon (memo : Memo α) (name : String) : Memo α :=
  { memo with inProgress := memo.inProgress.filter (· != name) }

/-- Stores a value and removes the mark of its name. -/
def put (memo : Memo α) (name : String) (value : α) : Memo α :=
  { memo.abandon name with entries := memo.entries.insert name value }

/-- The number of names that have been resolved. -/
def size (memo : Memo α) : Nat := memo.entries.length

/-- Whether a name has been resolved; this does not count as a lookup. -/
def contains (memo : Memo α) (name : String) : Bool := memo.entries.contains name

/-- The share of the lookups that found something, in percent with one decimal.  The quotient
and its hundredfold are doubles; the decimal is rounded to nearest, a tie going to the even
digit. -/
def hitRate (memo : Memo α) : String :=
  let total := memo.hits + memo.misses
  let percent : Double :=
    if total = 0 then Double.ofRatio false 0 1
    else
      match Double.ofRatio false memo.hits total with
      | .finite _ m e =>
        let r := Double.Ratio.scale (m * 100) e
        Double.ofRatio false r.num r.den
      | other => other
  match percent with
  | .finite _ m e =>
    let r := Double.Ratio.scale (m * 10) e
    let tenths := Double.roundDiv r.num r.den
    toString (tenths / 10) ++ "." ++ toString (tenths % 10) ++ "%"
  | _ => "0.0%"

/-- The counts of a memo. -/
def toJson (memo : Memo α) : Json :=
  .obj [("size", .int memo.size), ("hits", .int memo.hits), ("misses", .int memo.misses),
    ("hit_rate", .text memo.hitRate)]

end Memo

end ContractInterface
