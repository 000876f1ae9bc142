import ContractInterface.Text.Digit

/-!
# Decimal numerals

Numbers are unbounded, but a decimal numeral of more than 4300 digits is neither read nor
written.  Leading zeros count as digits; a sign does not.
-/

namespace ContractInterface.Numeral

/-- The largest number of digits of a decimal numeral. -/
def digitLimit : Nat := 4300

/-- Why a decimal numeral is refused. -/
inductive Error where
  /-- The numeral to be read has this many digits. -/
  | unreadable (digits : Nat)
  /-- The number to be written has too many digits. -/
  | unwritable
  deriving DecidableEq, Repr

/-- The wording of a refusal. -/
def Error.message : Error → String
  | .unreadable digits =>
    "Exceeds the limit (4300 digits) for integer string conversion: value has " ++
      toString digits ++ " digits; use sys.set_int_max_str_digits() to increase the limit"
  | .unwritable =>
    "Exceeds the limit (4300 digits) for integer string conversion; " ++
      "use sys.set_int_max_str_digits() to increase the limit"

/-- The number with the given digits in a base, most significant first. -/
def ofDigits (base : Nat) (digits : List Nat) : Nat :=
  digits.foldl (fun n d => base * n + d) 0

/-- The number that a run of decimal digits of any script denotes. -/
def value (t : Text) : Nat :=
  ofDigits 10 (t.filterMap digitValue?)

/-- The number that a run of hexadecimal digits denotes. -/
def hexValue (t : Text) : Nat :=
  ofDigits 16 (t.filterMap hexValue?)

/-- Reads a run of decimal digits, unless there are too many. -/
def read (t : Text) : Except Error Nat :=
  if t.length ≤ digitLimit then .ok (value t) else .error (.unreadable t.length)

/-- Whether a number has few enough digits to be written. -/
def isWritable (n : Int) : Bool :=
  n.natAbs < Nat.pow 10 digitLimit

/-- The decimal digits of a number, with a minus sign if it is negative. -/
def ofInt (n : Int) : Text :=
  match n with
  | .ofNat m => Nat.toDigits 10 m
  | .negSucc m => '-' :: Nat.toDigits 10 (m + 1)

/-- The decimal numeral of a number. -/
def render (n : Int) : String :=
  String.ofList (ofInt n)

/-- Refuses a number that has too many digits to be written. -/
def requireWritable (n : Int) : Except Error Unit :=
  if isWritable n then .ok () else .error .unwritable

end ContractInterface.Numeral
