/-!
# Tables

A table assigns values to names and remembers the order in which the names were first added.
Assigning to a name that is already there replaces its value in place.  The names are texts, or
whatever else can be told apart.
-/

namespace ContractInterface

/-- An assignment of values to keys, in the order in which the keys were added. -/
abbrev Assignments (κ α : Type) := List (κ × α)

/-- An assignment of values to names. -/
abbrev Table (α : Type) := Assignments String α

namespace Assignments

variable {κ α : Type}

/-- The keys that have a value, in order. -/
def names (table : Assignments κ α) : List κ :=
  table.map Prod.fst

variable [DecidableEq κ]

/-- The value assigned to a key. -/
def get? : Assignments κ α → κ → Option α
  | [], _ => none
  | (key, value) :: rest, name => if key = name then some value else get? rest name

/-- Whether a key has a value. -/
def contains (table : Assignments κ α) (name : κ) : Bool :=
  (get? table name).isSome

/-- Assigns a value to a key. -/
def insert : Assignments κ α → κ → α → Assignments κ α
  | [], name, value => [(name, value)]
  | (key, old) :: rest, name, value =>
    if key = name then (key, value) :: rest else (key, old) :: insert rest name value

/-- The table with the assignments of a list made from left to right. -/
def ofList (assignments : List (κ × α)) : Assignments κ α :=
  assignments.foldl (fun table (name, value) => insert table name value) []

end Assignments

end ContractInterface
