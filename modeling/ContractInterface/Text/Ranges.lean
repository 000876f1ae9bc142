/-!
# Tables of code point ranges

A property of characters is given as a table of inclusive ranges of code points in increasing
order.
-/

namespace ContractInterface

/-- Whether a code point lies in one of the inclusive ranges. -/
def inRanges (table : Array (Nat × Nat)) (n : Nat) : Bool :=
  table.any fun (low, high) => low ≤ n && n ≤ high

end ContractInterface
