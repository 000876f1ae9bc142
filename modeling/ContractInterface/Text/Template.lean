import ContractInterface.Text.Identifier
import ContractInterface.Text.Integer
import ContractInterface.Text.Quoted

/-!
# Templates

A template gives the text that stands for another one.  A backslash in it starts an escape: a
letter escape or an octal number denotes a character, and a reference to group zero denotes the
text that is replaced.  There are no other groups.
-/

namespace ContractInterface.Template

/-! ### Errors -/

/-- Why a text is no template. -/
inductive Error where
  | empty
  | danglingEscape (position : Nat)
  | badEscape (escape : Text) (position : Nat)
  | octalRange (escape : Text) (position : Nat)
  | badGroup (number : Nat) (position : Nat)
  | missingOpening (position : Nat)
  | missingName (position : Nat)
  | unterminatedName (position : Nat)
  | badName (name : Text) (position : Nat)
  | unknownName (name : Text)
  deriving DecidableEq, Repr

/-- The wording of a position in a template; in a template of several lines it names the line
and the column too. -/
def positionText (template : Text) (position : Nat) : String :=
  let before := template.take position
  let line := before.count '\n' + 1
  let column := (before.reverse.takeWhile (· != '\n')).length + 1
  " at position " ++ toString position ++
    if template.contains '\n' then
      " (line " ++ toString line ++ ", column " ++ toString column ++ ")"
    else ""

/-- The wording of an error in a template. -/
def Error.message (template : Text) : Error → String
  | .empty => "nothing to repeat at position 0"
  | .danglingEscape position =>
    "bad escape (end of pattern)" ++ positionText template position
  | .badEscape escape position =>
    "bad escape " ++ String.ofList escape ++ positionText template position
  | .octalRange escape position =>
    "octal escape value " ++ String.ofList escape ++ " outside of range 0-0o377" ++
      positionText template position
  | .badGroup number position =>
    "invalid group reference " ++ toString number ++ positionText template position
  | .missingOpening position => "missing <" ++ positionText template position
  | .missingName position => "missing group name" ++ positionText template position
  | .unterminatedName position =>
    "missing >, unterminated name" ++ positionText template position
  | .badName name position =>
    "bad character in group name " ++ String.ofList (Text.quoted name) ++
      positionText template position
  | .unknownName name => "unknown group name " ++ String.ofList (Text.quoted name)

/-! ### Units -/

/-- The units of a template: its characters, and its backslashes with the characters that they
escape.  A backslash at the end is a unit of its own. -/
def units : Text → List Text
  | [] => []
  | ['\\'] => [['\\']]
  | '\\' :: c :: t => ['\\', c] :: units t
  | c :: t => [c] :: units t

/-- Refuses to read on where only a backslash is left. -/
def refuseDangling (position : Nat) : List Text → Except Error Unit
  | ['\\'] :: _ => .error (.danglingEscape position)
  | _ => .ok ()

/-! ### Escapes -/

/-- A piece of a template: a character, or the text that is replaced. -/
inductive Piece where
  | literal (c : Char)
  | whole
  deriving DecidableEq, Repr

/-- The characters that escape letters stand for. -/
def escapeLetters : List (Char × Char) :=
  [('a', Char.ofNat 7), ('b', Char.ofNat 8), ('f', Char.ofNat 12), ('n', '\n'), ('r', '\r'),
    ('t', '\t'), ('v', Char.ofNat 11), ('\\', '\\')]

/-- Whether a character is an octal digit. -/
def isOctal (c : Char) : Bool :=
  '0' ≤ c && c ≤ '7'

/-- The number that octal digits denote. -/
def octalValue (digits : Text) : Nat :=
  Numeral.ofDigits 8 (digits.filterMap digitValue?)

/-- The group that a name refers to; the name starts at a position. -/
def namedGroup (position : Nat) (name : Text) : Except Error Piece :=
  if name.isIdentifier then .error (.unknownName name)
  else
    match Integer.read? name with
    | some (.ofNat 0) => .ok .whole
    | some (.ofNat n) => .error (.badGroup n position)
    | _ => .error (.badName name position)

/-- The piece that a reference in angle brackets denotes, and the number of its units. -/
def reference (position : Nat) : List Text → Except Error (Piece × Nat)
  | ['<'] :: us => do
    let name := us.takeWhile (· != ['>'])
    let start := position + 1
    let stop := start + name.flatten.length
    match us.dropWhile (· != ['>']) with
    | [] =>
      refuseDangling (stop - 1) name.getLast?.toList
      throw (if name.isEmpty then .missingName start else .unterminatedName start)
    | _ :: after =>
      refuseDangling (stop + 1) after
      if name.isEmpty then throw (.missingName start)
      return (← namedGroup start name.flatten, name.length + 2)
  | _ => .error (.missingOpening position)

/-- The digits of an escape that starts with a digit, given those that follow, and whether they
are an octal number. -/
def digitEscape (c : Char) (digits : Text) : Text × Bool :=
  if c = '0' then (c :: (digits.take 2).takeWhile isOctal, true)
  else
    match digits with
    | [] => ([c], false)
    | [d] => ([c, d], false)
    | d :: e :: _ => if [c, d, e].all isOctal then ([c, d, e], true) else ([c, d], false)

/-- The decimal digits in front of units. -/
def leadingDigits (us : List Text) : Text :=
  (us.takeWhile fun u => u.all Char.isDigit).flatten

/-- The pieces of an escape at a position, given the units after it, and the number of those
that belong to it. -/
def escape (position : Nat) (c : Char) (us : List Text) : Except Error (List Piece × Nat) := do
  if c = 'g' then
    let (piece, length) ← reference (position + 2) us
    return ([piece], length)
  else if c.isDigit then
    let (digits, isNumber) := digitEscape c (leadingDigits us)
    refuseDangling (position + 1 + digits.length) (us.drop (digits.length - 1))
    if !isNumber then throw (.badGroup (Numeral.value digits) (position + 1))
    if 0o377 < octalValue digits then throw (.octalRange ('\\' :: digits) position)
    return ([.literal (Char.ofNat (octalValue digits))], digits.length - 1)
  else
    match escapeLetters.lookup c with
    | some d => return ([.literal d], 0)
    | none =>
      if c.isAlpha then throw (.badEscape ['\\', c] position)
      return ([.literal '\\', .literal c], 0)

/-! ### Pieces -/

/-- The pieces of units from a position on, after passing over `skip` units. -/
def piecesFrom : Nat → Nat → List Text → Except Error (List Piece)
  | _, _, [] => .ok []
  | position, skip + 1, u :: us => piecesFrom (position + u.length) skip us
  | position, 0, u :: us => do
    refuseDangling (position + u.length) us
    match u with
    | [_, c] =>
      let (pieces, length) ← escape position c us
      return pieces ++ (← piecesFrom (position + u.length) length us)
    | _ => return u.map .literal ++ (← piecesFrom (position + u.length) 0 us)

/-- The pieces of a template. -/
def pieces (template : Text) : Except Error (List Piece) := do
  refuseDangling 0 (units template)
  piecesFrom 0 0 (units template)

/-- The text that pieces give for the text that they replace. -/
def expand (pieces : List Piece) (replaced : Text) : Text :=
  pieces.flatMap fun
    | .literal c => [c]
    | .whole => replaced

end ContractInterface.Template
