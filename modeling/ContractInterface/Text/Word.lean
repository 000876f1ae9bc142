import ContractInterface.Text.Alphanumeric
import ContractInterface.Text.Basic

/-!
# Words and identifiers

A word character is a letter, a number or an underscore.  An identifier starts with an ASCII
letter or an underscore and goes on with word characters.
-/

namespace ContractInterface

/-- Whether a character can stand inside a word. -/
def isWord (c : Char) : Bool :=
  c == '_' || isAlphanumeric c

/-- Whether an identifier can start with the character. -/
def isIdentStart (c : Char) : Bool :=
  c == '_' || c.isAlpha

namespace Text

/-- Whether the text starts with a word character. -/
def startsWord : Text → Bool
  | [] => false
  | c :: _ => isWord c

/-- Whether the text is an identifier. -/
def isIdent : Text → Bool
  | [] => false
  | c :: t => isIdentStart c && t.all isWord

/-- The longest identifier at the front, and what follows it. -/
def takeIdent? : Text → Option (Text × Text)
  | [] => none
  | c :: t =>
    if isIdentStart c then some (c :: t.takeWhile isWord, t.dropWhile isWord) else none

/-- Takes a keyword off the front; the keyword must end at a word boundary. -/
def dropKeyword? (keyword t : Text) : Option Text :=
  match dropPrefix? keyword t with
  | some rest => if rest.startsWord then none else some rest
  | none => none

end Text

end ContractInterface
