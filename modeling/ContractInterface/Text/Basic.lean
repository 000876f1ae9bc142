/-!
# Text

Header text is handled as the list of its characters.  This module has the operations that the
scanners share: taking a fixed word off the front, cutting at the first character of a class,
and splitting at separators.
-/

namespace ContractInterface

/-- A piece of text, as the list of its characters. -/
abbrev Text := List Char

namespace Text

/-- What follows a given beginning, if the text has that beginning. -/
def dropPrefix? : Text → Text → Option Text
  | [], t => some t
  | _ :: _, [] => none
  | c :: word, d :: t => if c = d then dropPrefix? word t else none

/-- Whether the text has the given beginning. -/
def hasPrefix (word t : Text) : Bool :=
  (dropPrefix? word t).isSome

/-- What precedes a given ending, if the text has that ending. -/
def dropSuffix? (word t : Text) : Option Text :=
  (dropPrefix? word.reverse t.reverse).map List.reverse

/-- The text before and after the first character of a class. -/
def cutAt? (p : Char → Bool) : Text → Option (Text × Char × Text)
  | [] => none
  | c :: t =>
    if p c then some ([], c, t)
    else (cutAt? p t).map fun (before, d, after) => (c :: before, d, after)

/-- The text before and after the last character of a class. -/
def cutAtLast? (p : Char → Bool) : Text → Option (Text × Char × Text)
  | [] => none
  | c :: t =>
    match cutAtLast? p t with
    | some (before, d, after) => some (c :: before, d, after)
    | none => if p c then some ([], c, t) else none

/-- The pieces between the characters of a class; there is always at least one piece. -/
def splitWhere (p : Char → Bool) : Text → List Text
  | [] => [[]]
  | c :: t =>
    if p c then [] :: splitWhere p t
    else
      match splitWhere p t with
      | [] => [[c]]
      | piece :: pieces => (c :: piece) :: pieces

/-- Drops the characters of a class from the end. -/
def dropEndWhile (p : Char → Bool) (t : Text) : Text :=
  (t.reverse.dropWhile p).reverse

end Text

end ContractInterface
