import ContractInterface.Json.Basic

/-!
# Reading JSON

The reader follows the grammar from left to right and stops at the first fault, which it reports
with the place where it stood.  Besides the standard grammar it takes the names of the doubles
that have no decimal.  Of members with the same name the last value counts, at the place of the
first.
-/

namespace ContractInterface.Json

/-- What is wrong with a text that is not JSON. -/
inductive Complaint where
  | expectingValue
  | expectingName
  | expectingColon
  | expectingComma
  | extraData
  | unterminatedString
  | controlCharacter
  | badEscape
  | badUnicodeEscape
  | byteOrderMark
  deriving DecidableEq, Repr

/-- The wording of a complaint. -/
def Complaint.message : Complaint → String
  | .expectingValue => "Expecting value"
  | .expectingName => "Expecting property name enclosed in double quotes"
  | .expectingColon => "Expecting ':' delimiter"
  | .expectingComma => "Expecting ',' delimiter"
  | .extraData => "Extra data"
  | .unterminatedString => "Unterminated string starting at"
  | .controlCharacter => "Invalid control character at"
  | .badEscape => "Invalid \\escape"
  | .badUnicodeEscape => "Invalid \\uXXXX escape"
  | .byteOrderMark => "Unexpected UTF-8 BOM (decode using utf-8-sig)"

/-- A fault met while reading: a complaint with the text that was left when it arose, or an
integer that cannot be read. -/
inductive Fault where
  | complaint (cause : Complaint) (left : Text)
  | numeral (cause : Numeral.Error)
  deriving DecidableEq, Repr

/-- A reader takes a value off the front of a text. -/
abbrev Reader (α : Type) := Text → Except Fault (α × Text)

/-- Whether a character may stand between tokens. -/
def isGap (c : Char) : Bool :=
  c == ' ' || c == '\t' || c == '\n' || c == '\r'

/-- Drops the gap in front of a token. -/
def skipGap (t : Text) : Text :=
  t.dropWhile isGap

/-! ### Strings -/

/-- The character that an escape letter stands for. -/
def simpleEscape? : Char → Option Char
  | '"' => some '"'
  | '\\' => some '\\'
  | '/' => some '/'
  | 'b' => some (Char.ofNat 8)
  | 'f' => some (Char.ofNat 12)
  | 'n' => some '\n'
  | 'r' => some '\r'
  | 't' => some '\t'
  | _ => none

/-- The UTF-16 unit of four hexadecimal digits at the front of a text, of which something must
be left after them. -/
def takeUnit? : Text → Option (Nat × Text)
  | a :: b :: c :: d :: e :: t =>
    if isHex a && isHex b && isHex c && isHex d then
      some (Numeral.hexValue [a, b, c, d], e :: t)
    else none
  | _ => none

/-- Whether a UTF-16 unit is the first half of a pair. -/
def isHighUnit (n : Nat) : Bool := 0xd800 ≤ n && n < 0xdc00

/-- Whether a UTF-16 unit is the second half of a pair. -/
def isLowUnit (n : Nat) : Bool := 0xdc00 ≤ n && n < 0xe000

/-- The character of a UTF-16 pair. -/
def joinUnits (high low : Nat) : Char :=
  Char.ofNat (0x10000 + (high - 0xd800) * 0x400 + (low - 0xdc00))

/-- The code point of a UTF-16 unit that stands alone. -/
def unitPoint (n : Nat) : CodePoint :=
  if isHighUnit n || isLowUnit n then .half n else .char (Char.ofNat n)

/-- The code points up to the closing quote, after passing over `skip` characters.  `opened` is
the text from the opening quote on. -/
def takePoints (opened : Text) : Nat → Reader (List CodePoint)
  | _, [] => .error (.complaint .unterminatedString opened)
  | skip + 1, _ :: t => takePoints opened skip t
  | 0, '"' :: t => .ok ([], t)
  | 0, ['\\'] => .error (.complaint .unterminatedString opened)
  | 0, '\\' :: 'u' :: t =>
    match takeUnit? t with
    | none => .error (.complaint .badUnicodeEscape ('u' :: t))
    | some (high, rest) =>
      match isHighUnit high, rest with
      | true, '\\' :: 'u' :: rest' =>
        match takeUnit? rest' with
        | none =>
          -- A pair is only looked for when there is room for its second half.
          if 5 ≤ rest'.length then .error (.complaint .badUnicodeEscape ('u' :: rest'))
          else do
            let (ps, rest) ← takePoints opened 4 t
            return (unitPoint high :: ps, rest)
        | some (low, _) =>
          if isLowUnit low then do
            let (ps, rest) ← takePoints opened 10 t
            return (.char (joinUnits high low) :: ps, rest)
          else do
            let (ps, rest) ← takePoints opened 4 t
            return (unitPoint high :: ps, rest)
      | _, _ => do
        let (ps, rest) ← takePoints opened 4 t
        return (unitPoint high :: ps, rest)
  | 0, '\\' :: c :: t =>
    match simpleEscape? c with
    | none => .error (.complaint .badEscape ('\\' :: c :: t))
    | some d => do
      let (ps, rest) ← takePoints opened 0 t
      return (.char d :: ps, rest)
  | 0, c :: t =>
    if c.toNat ≤ 0x1f then .error (.complaint .controlCharacter (c :: t))
    else do
      let (ps, rest) ← takePoints opened 0 t
      return (.char c :: ps, rest)

/-- A string whose opening quote has been taken off. -/
def takeString (t : Text) : Except Fault (JsonString × Text) := do
  let (ps, rest) ← takePoints ('"' :: t) 0 t
  return (JsonString.ofPoints ps, rest)

/-! ### Numbers -/

/-- The integer part of a number: zero alone, or digits that do not start with zero. -/
def takeWhole? : Text → Option (Text × Text)
  | '0' :: t => some (['0'], t)
  | t =>
    let digits := t.takeWhile Char.isDigit
    if digits.isEmpty then none else some (digits, t.dropWhile Char.isDigit)

/-- The digits after the point. -/
def takeFraction? : Text → Option (Text × Text)
  | '.' :: t =>
    let digits := t.takeWhile Char.isDigit
    if digits.isEmpty then none else some (digits, t.dropWhile Char.isDigit)
  | _ => none

/-- The exponent of a number. -/
def takeExponent? : Text → Option (Int × Text)
  | e :: t =>
    if e == 'e' || e == 'E' then
      let (negative, t) :=
        match t with
        | '-' :: t => (true, t)
        | '+' :: t => (false, t)
        | t => (false, t)
      let digits := t.takeWhile Char.isDigit
      if digits.isEmpty then none
      else
        let n : Int := Numeral.value digits
        some (if negative then -n else n, t.dropWhile Char.isDigit)
    else none
  | [] => none

/-- A number at the front of a text. -/
def takeNumber? (t : Text) : Except Fault (Option (Json × Text)) :=
  let (negative, digits) :=
    match t with
    | '-' :: t => (true, t)
    | t => (false, t)
  match takeWhole? digits with
  | none => .ok none
  | some (whole, rest) =>
    match takeFraction? rest, takeExponent? rest with
    | none, none =>
      match Numeral.read whole with
      | .ok n => .ok (some (.int (if negative then -n else n), rest))
      | .error e => .error (.numeral e)
    | some (fraction, rest), _ =>
      let (exponent, rest) := (takeExponent? rest).getD (0, rest)
      .ok (some (.float (Double.ofDecimal negative (Numeral.value (whole ++ fraction))
        (exponent - fraction.length)), rest))
    | none, some (exponent, rest) =>
      .ok (some (.float (Double.ofDecimal negative (Numeral.value whole) exponent), rest))

/-! ### Values -/

/-- The words that denote values. -/
def literals : List (Text × Json) :=
  [("null".toList, .null), ("true".toList, .bool true), ("false".toList, .bool false),
    ("NaN".toList, .float .nan), ("Infinity".toList, .float (.infinite false)),
    ("-Infinity".toList, .float (.infinite true))]

/-- A word that denotes a value, or a number. -/
def takeAtom (t : Text) : Except Fault (Json × Text) :=
  match literals.findSome? fun (word, v) => (Text.dropPrefix? word t).map fun rest => (v, rest) with
  | some found => .ok found
  | none => do
    match ← takeNumber? t with
    | some found => return found
    | none => throw (.complaint .expectingValue t)

mutual

/-- A value at the front of a text.  Every step takes a character off the text, so its length
is enough fuel. -/
def takeValue : Nat → Reader Json
  | 0, t => .error (.complaint .expectingValue t)
  | _ + 1, '"' :: t => do
    let (s, rest) ← takeString t
    return (.str s, rest)
  | fuel + 1, '[' :: t =>
    match skipGap t with
    | ']' :: rest => .ok (.arr [], rest)
    | t => do
      let (items, rest) ← takeItems fuel t
      return (.arr items, rest)
  | fuel + 1, '\x7b' :: t =>
    match skipGap t with
    | '\x7d' :: rest => .ok (.obj [], rest)
    | t => do
      let (members, rest) ← takeMembers fuel t
      return (.obj (Assignments.ofList members), rest)
  | _ + 1, t => takeAtom t

/-- The items of a list that is not empty. -/
def takeItems : Nat → Reader (List Json)
  | 0, t => .error (.complaint .expectingValue t)
  | fuel + 1, t => do
    let (item, t) ← takeValue fuel t
    match skipGap t with
    | ']' :: rest => return ([item], rest)
    | ',' :: rest =>
      let (items, rest) ← takeItems fuel (skipGap rest)
      return (item :: items, rest)
    | t => throw (.complaint .expectingComma t)

/-- The members of an object that is not empty. -/
def takeMembers : Nat → Reader (List (JsonString × Json))
  | 0, t => .error (.complaint .expectingName t)
  | fuel + 1, '"' :: t => do
    let (name, t) ← takeString t
    match skipGap t with
    | ':' :: rest =>
      let (value, t) ← takeValue fuel (skipGap rest)
      match skipGap t with
      | '\x7d' :: rest => return ([(name, value)], rest)
      | ',' :: rest =>
        let (members, rest) ← takeMembers fuel (skipGap rest)
        return ((name, value) :: members, rest)
      | t => throw (.complaint .expectingComma t)
    | t => throw (.complaint .expectingColon t)
  | _ + 1, t => .error (.complaint .expectingName t)

end

/-- The value that a whole text denotes. -/
def readText (t : Text) : Except Fault Json :=
  if Text.hasPrefix [Char.ofNat 0xfeff] t then .error (.complaint .byteOrderMark t)
  else do
    let (v, rest) ← takeValue (2 * t.length + 1) (skipGap t)
    match skipGap rest with
    | [] => return v
    | rest => throw (.complaint .extraData rest)

/-! ### Places -/

/-- The wording of a complaint with its line, column and offset in the whole text, given the
text that was left. -/
def describe (whole : Text) (cause : Complaint) (left : Text) : String :=
  let offset := whole.length - left.length
  let before := whole.take offset
  let line := before.count '\n' + 1
  let column := (before.reverse.takeWhile (· != '\n')).length + 1
  cause.message ++ ": line " ++ toString line ++ " column " ++ toString column ++
    " (char " ++ toString offset ++ ")"

end ContractInterface.Json
