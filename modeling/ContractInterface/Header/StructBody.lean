import ContractInterface.Text.Blank
import ContractInterface.Text.Scan
import ContractInterface.Text.Word

/-!
# Struct bodies

A struct is found by the word `struct`, blanks, its name and an opening brace, with none of
`;`, `(`, `)` and `}` between the name and the brace.  So forward declarations are passed over
and base class lists are allowed.  The body extends to the brace that closes the opening one.
-/

namespace ContractInterface.Header

/-- The number of characters before the brace at which `depth` open braces have all been
closed. -/
def closingBrace? : Int → Text → Option Nat
  | _, [] => none
  | depth, c :: t =>
    if c = '{' then (closingBrace? (depth + 1) t).map (· + 1)
    else if c = '}' then
      if depth = 1 then some 0 else (closingBrace? (depth - 1) t).map (· + 1)
    else (closingBrace? depth t).map (· + 1)

/-- A place that is not in a text. -/
inductive PlaceError where
  | outOfRange
  deriving DecidableEq, Repr

/-- The wording of an error about a place. -/
def PlaceError.message : PlaceError → String
  | .outOfRange => "string index out of range"

/-- The text from a place on.  A negative place counts from the end, and the text then starts
over. -/
def textFrom (source : Text) : Int → Except PlaceError Text
  | .ofNat start => .ok (source.drop start)
  | .negSucc n =>
    if n < source.length then .ok (source.drop (source.length - (n + 1)) ++ source)
    else .error .outOfRange

/-- The place of the brace that closes the one at a given place, counted as the given one is. -/
def matchingBrace (source : Text) (start : Int) : Except PlaceError (Option Int) := do
  return (closingBrace? 0 (← textFrom source start)).map fun (n : Nat) => start + n

/-- Whether a character ends the search for the opening brace of a struct. -/
def isStructDelimiter (c : Char) : Bool :=
  c == ';' || c == '{' || c == '}' || c == '(' || c == ')'

/-- What is left after one or more of the blanks in front, from the most to the fewest. -/
def afterSomeBlanks : Text → List Text
  | [] => []
  | c :: t => if isBlank c then afterSomeBlanks t ++ [t] else []

/-- What follows the opening brace, from the name of a struct on.  The name must end at a word
boundary. -/
def afterName? (name t : Text) : Option Text := do
  let rest ← Text.dropPrefix? name t
  if name.getLast?.any isWord == Text.startsWord rest then none
  else
    match Text.cutAt? isStructDelimiter rest with
    | some (_, '{', body) => some body
    | _ => none

/-- The start of the definition of a struct; what follows the match is its body. -/
def structMatcher (name : Text) : Matcher Unit := fun before t =>
  if before.any isWord then none
  else do
    let rest ← Text.dropPrefix? "struct".toList t
    let body ← (afterSomeBlanks rest).findSome? (afterName? name)
    some ((), body)

/-- The body of the first definition of a struct, if its braces are balanced. -/
def structBody? (source name : Text) : Option Text := do
  let (_, rest) ← Text.scanFirst? (structMatcher name) source
  let length ← closingBrace? 1 rest
  some (rest.take length)

end ContractInterface.Header
