import ContractInterface.Text.Blank

/-!
# Comments and directives

Before a header is scanned its comments are removed, first every closed block comment and then
every line comment.  A block comment leaves a space, so that the words on its two sides stay
apart; an opened block that is never closed is ordinary text, and quotation marks are not
special.  A directive is a line whose first character, spaces and tabs aside, is `#`.
-/

namespace ContractInterface.Header

/-- Whether a block comment is closed somewhere in the text. -/
def closesBlock : Text → Bool
  | '*' :: '/' :: _ => true
  | _ :: t => closesBlock t
  | [] => false

/-- Replaces closed block comments by a space; the flag tells whether the text starts inside
such a comment. -/
def dropBlocks : Bool → Text → Text
  | _, [] => []
  | true, '*' :: '/' :: t => dropBlocks false t
  | true, _ :: t => dropBlocks true t
  | false, '/' :: '*' :: t =>
    if closesBlock t then ' ' :: dropBlocks true t else '/' :: '*' :: dropBlocks false t
  | false, c :: t => c :: dropBlocks false t

/-- Removes line comments up to the line end; the flag tells whether the text starts inside
such a comment. -/
def dropLineComments : Bool → Text → Text
  | _, [] => []
  | true, '\n' :: t => '\n' :: dropLineComments false t
  | true, _ :: t => dropLineComments true t
  | false, '/' :: '/' :: t => dropLineComments true t
  | false, c :: t => c :: dropLineComments false t

/-- The text without its comments. -/
def stripComments (t : Text) : Text :=
  dropLineComments false (dropBlocks false t)

/-- Whether a line is a directive. -/
def isDirective (line : Text) : Bool :=
  Text.hasPrefix ['#'] (line.dropWhile isSpaceOrTab)

/-- The text with every directive replaced by an empty line. -/
def blankDirectives (t : Text) : Text :=
  ['\n'].intercalate
    ((Text.splitWhere (· == '\n') t).map fun line => if isDirective line then [] else line)

end ContractInterface.Header
