import ContractInterface.Text.Basic

/-!
# Blank characters

Blanks are the characters that separate words: the ASCII spaces and line ends, the four
information separators, and the spaces and line ends of other scripts.  The zero-width space
and the byte order mark are not blank.  Collapsing a text keeps its words and puts one space
between neighbours.
-/

namespace ContractInterface

/-- Whether a character separates words. -/
def isBlank (c : Char) : Bool :=
  let n := c.toNat
  n == 32 || (9 ≤ n && n ≤ 13) || (28 ≤ n && n ≤ 31) ||
    (128 ≤ n &&
      (n == 0x85 || n == 0xa0 || n == 0x1680 || (0x2000 ≤ n && n ≤ 0x200a) ||
        n == 0x2028 || n == 0x2029 || n == 0x202f || n == 0x205f || n == 0x3000))

/-- Whether a character is a space or a tab. -/
def isSpaceOrTab (c : Char) : Bool :=
  c == ' ' || c == '\t'

namespace Text

/-- Drops the blanks in front. -/
def trimLeft (t : Text) : Text :=
  t.dropWhile isBlank

/-- Drops the blanks at the end. -/
def trimRight (t : Text) : Text :=
  dropEndWhile isBlank t

/-- Drops the blanks at both ends. -/
def trim (t : Text) : Text :=
  trimRight (trimLeft t)

/-- Drops the blanks in front, of which there must be one. -/
def afterBlanks? : Text → Option Text
  | [] => none
  | c :: t => if isBlank c then some (trimLeft t) else none

/-- The maximal runs of characters that are not blank. -/
def words (t : Text) : List Text :=
  (splitWhere isBlank t).filter fun w => !w.isEmpty

/-- The words of a text with one space between neighbours. -/
def collapse (t : Text) : Text :=
  [' '].intercalate (words t)

end Text

end ContractInterface
