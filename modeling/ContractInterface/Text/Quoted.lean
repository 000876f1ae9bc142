import ContractInterface.Text.Digit
import ContractInterface.Text.Printable

/-!
# Quoted text

A text in a message stands between single quotes, or between double quotes if it contains a
single quote and no double quote.  The quote, the backslash and the three usual control
characters are written with a backslash, and other unprintable characters by their code point.
-/

namespace ContractInterface.Text

/-- The sixteen hexadecimal digits in lower case. -/
def hexDigit (n : Nat) : Char :=
  Char.ofNat (if n < 10 then 48 + n else 87 + n)

/-- The last `width` hexadecimal digits of a number. -/
def hexDigits : Nat → Nat → Text
  | 0, _ => []
  | width + 1, n => hexDigits width (n / 16) ++ [hexDigit (n % 16)]

/-- A character as it stands between the given quotes. -/
def quoteChar (quote c : Char) : Text :=
  if c = quote || c = '\\' then ['\\', c]
  else if c = '\n' then ['\\', 'n']
  else if c = '\r' then ['\\', 'r']
  else if c = '\t' then ['\\', 't']
  else if isPrintable c then [c]
  else if c.toNat < 0x100 then '\\' :: 'x' :: hexDigits 2 c.toNat
  else if c.toNat < 0x10000 then '\\' :: 'u' :: hexDigits 4 c.toNat
  else '\\' :: 'U' :: hexDigits 8 c.toNat

/-- The quotation mark for a text. -/
def quoteMark (t : Text) : Char :=
  if t.contains '\'' && !t.contains '"' then '"' else '\''

/-- A text between quotes. -/
def quoted (t : Text) : Text :=
  let quote := quoteMark t
  quote :: t.flatMap (quoteChar quote) ++ [quote]

end ContractInterface.Text

namespace ContractInterface

/-- A string between quotes. -/
def quoteString (s : String) : String :=
  String.ofList (Text.quoted s.toList)

end ContractInterface
