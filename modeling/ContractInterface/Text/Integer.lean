import ContractInterface.Text.Basic
import ContractInterface.Text.Blank
import ContractInterface.Text.Numeral

/-!
# Integers

An integer is written with decimal digits of any script, in groups that single underscores may
separate.  A sign may stand directly before the digits, and blanks may stand around the whole.
-/

namespace ContractInterface.Integer

/-- Whether a character may stand around an integer: the blanks, but not the ASCII separators. -/
def isPadding (c : Char) : Bool :=
  isBlank c && !(28 ≤ c.toNat && c.toNat ≤ 31)

/-- The digits of a numeral whose groups are separated by single underscores. -/
def ungroup? (t : Text) : Option Text :=
  let groups := Text.splitWhere (· == '_') t
  if groups.all fun group => !group.isEmpty && group.all isDecimal then some groups.flatten
  else none

/-- The number that grouped digits denote, unless there are too many digits. -/
def magnitude? (t : Text) : Option Nat := do
  let digits ← ungroup? t
  (Numeral.read digits).toOption

/-- Reads an integer. -/
def read? (t : Text) : Option Int :=
  match Text.dropEndWhile isPadding (t.dropWhile isPadding) with
  | '-' :: digits => (magnitude? digits).map fun n => -(n : Int)
  | '+' :: digits => (magnitude? digits).map Int.ofNat
  | digits => (magnitude? digits).map Int.ofNat

end ContractInterface.Integer
