import ContractInterface.Header.Comment
import ContractInterface.Text.Numeral
import ContractInterface.Text.Word

/-!
# Tokens of constant expressions

Constant expressions are made of integer literals, names, `+`, `-`, `*` and parentheses.  A
literal may carry one of the integer suffixes, which does not change its value.  A text that
divides, takes a remainder, or looks like a call has no tokens at all.
-/

namespace ContractInterface.Expr

/-- A binary operator. -/
inductive Op where
  | plus
  | minus
  | times
  deriving DecidableEq, Repr

/-- Multiplication binds tighter than addition and subtraction. -/
def Op.precedence : Op → Nat
  | .plus => 1
  | .minus => 1
  | .times => 2

/-- The value of an operator at two integers. -/
def Op.apply : Op → Int → Int → Int
  | .plus, a, b => a + b
  | .minus, a, b => a - b
  | .times, a, b => a * b

/-- The sign of an operator. -/
def Op.sign : Op → Char
  | .plus => '+'
  | .minus => '-'
  | .times => '*'

/-- The operator with a given sign. -/
def Op.ofSign? : Char → Option Op
  | '+' => some .plus
  | '-' => some .minus
  | '*' => some .times
  | _ => none

/-- A token of a constant expression. -/
inductive Token where
  | number (value : Nat)
  | ident (name : String)
  | op (o : Op)
  | openParen
  | closeParen
  deriving DecidableEq, Repr

namespace Token

/-- The endings of an integer literal: unsigned and long marks in either order. -/
def literalSuffixes : List String :=
  ["", "u", "U", "ull", "uLL", "ul", "uL", "Ull", "ULL", "Ul", "UL",
    "ll", "LL", "l", "L", "llu", "llU", "LLu", "LLU", "lu", "lU", "Lu", "LU"]

/-- What follows an integer literal whose digits have been taken off, if the rest of the word
is one of the literal endings. -/
def afterSuffix? (t : Text) : Option Text :=
  if literalSuffixes.contains (String.ofList (t.takeWhile isWord)) then some (t.dropWhile isWord)
  else none

/-- The hexadecimal digits of a literal that starts with `0x` or `0X`, and what follows them. -/
def takeHex? : Text → Option (Text × Text)
  | '0' :: x :: t =>
    if (x == 'x' || x == 'X') && !(t.takeWhile isHex).isEmpty then
      some (t.takeWhile isHex, t.dropWhile isHex)
    else none
  | _ => none

/-- An integer literal at the front of a text, and what follows it. -/
def takeNumber? (t : Text) : Except Numeral.Error (Option (Nat × Text)) :=
  match takeHex? t with
  | some (digits, rest) =>
    .ok ((afterSuffix? rest).map fun rest => (Numeral.hexValue digits, rest))
  | none =>
    match afterSuffix? (t.dropWhile isDecimal) with
    | none => .ok none
    | some rest => do
      let value ← Numeral.read (t.takeWhile isDecimal)
      return some (value, rest)

/-- The token at the front of a text, and what follows it. -/
def take? : Text → Except Numeral.Error (Option (Token × Text))
  | [] => .ok none
  | c :: t =>
    if isDecimal c then do
      return (← takeNumber? (c :: t)).map fun (value, rest) => (.number value, rest)
    else if c = '(' then .ok (some (.openParen, t))
    else if c = ')' then .ok (some (.closeParen, t))
    else
      match Op.ofSign? c with
      | some o => .ok (some (.op o, t))
      | none =>
        .ok ((Text.takeIdent? (c :: t)).map fun (name, rest) =>
          (.ident (String.ofList name), rest))

/-- The tokens of a text after passing over `skip` characters; there are none if some part of
the text is not a token. -/
def lexFrom : Nat → Text → Except Numeral.Error (Option (List Token))
  | _, [] => .ok (some [])
  | skip + 1, _ :: t => lexFrom skip t
  | 0, c :: t =>
    if isBlank c then lexFrom 0 t
    else do
      match ← take? (c :: t) with
      | none => return none
      | some (token, rest) =>
        return (← lexFrom (t.length - rest.length) t).map (token :: ·)

/-- Whether a name is directly followed by an opening parenthesis somewhere in the text. -/
def looksLikeCall : Text → Bool
  | [] => false
  | c :: t =>
    (isIdentStart c && Text.hasPrefix ['('] (Text.trimLeft (t.dropWhile isWord))) ||
      looksLikeCall t

/-- Whether a character is an operator that constant expressions do not have. -/
def isUnsupportedOp (c : Char) : Bool :=
  c == '/' || c == '%'

/-- The tokens of an expression, if every part of it is one. -/
def tokenize (expr : Text) : Except Numeral.Error (Option (List Token)) :=
  let t := Header.stripComments expr
  if t.any isUnsupportedOp || looksLikeCall t then .ok none else lexFrom 0 t

end Token

end ContractInterface.Expr
