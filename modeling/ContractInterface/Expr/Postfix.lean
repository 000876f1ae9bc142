import ContractInterface.Expr.Token
import ContractInterface.Table

/-!
# Postfix form

Operators wait on a stack until an operator that binds no tighter, a closing parenthesis or the
end of the expression releases them.  Names are replaced by their values on the way.  The
postfix form is then run on a stack of integers.
-/

namespace ContractInterface.Expr

/-- A step of a postfix program: push a value, or combine the two topmost ones. -/
inductive Step where
  | push (value : Int)
  | combine (o : Op)
  deriving DecidableEq, Repr

/-- What waits on the operator stack. -/
inductive Waiting where
  | op (o : Op)
  | paren
  deriving DecidableEq, Repr

namespace Waiting

/-- Whether a waiting operator is released by one of the given precedence. -/
def yieldsTo (precedence : Nat) : Waiting → Bool
  | .op o => precedence ≤ o.precedence
  | .paren => false

/-- Whether an operator, and not a parenthesis, is waiting. -/
def isOp : Waiting → Bool
  | .op _ => true
  | .paren => false

/-- The step that a released operator becomes. -/
def step? : Waiting → Option Step
  | .op o => some (.combine o)
  | .paren => none

end Waiting

/-- The state of a conversion: the steps so far, last first, and the waiting operators, topmost
first. -/
structure Yard where
  output : List Step
  waiting : List Waiting
  deriving DecidableEq, Repr

namespace Yard

/-- The conversion at its start. -/
def start : Yard := ⟨[], []⟩

/-- Releases the topmost operators of a class. -/
def release (p : Waiting → Bool) (yard : Yard) : Yard :=
  { output := ((yard.waiting.takeWhile p).filterMap Waiting.step?).reverse ++ yard.output
    waiting := yard.waiting.dropWhile p }

/-- Takes one token; a name without a value and a parenthesis without a partner fail. -/
def take (known : Table Int) (yard : Yard) : Token → Option Yard
  | .number value => some { yard with output := .push value :: yard.output }
  | .ident name =>
    (known.get? name).map fun value => { yard with output := .push value :: yard.output }
  | .op o =>
    let yard := yard.release (Waiting.yieldsTo o.precedence)
    some { yard with waiting := .op o :: yard.waiting }
  | .openParen => some { yard with waiting := .paren :: yard.waiting }
  | .closeParen =>
    let yard := yard.release Waiting.isOp
    match yard.waiting with
    | [] => none
    | _ :: waiting => some { yard with waiting }

/-- Ends the conversion; an open parenthesis fails. -/
def finish (yard : Yard) : Option (List Step) :=
  let yard := yard.release Waiting.isOp
  if yard.waiting.isEmpty then some yard.output.reverse else none

end Yard

/-- The postfix form of a token sequence. -/
def toPostfix (known : Table Int) (tokens : List Token) : Option (List Step) := do
  let yard ← tokens.foldlM (Yard.take known) Yard.start
  yard.finish

/-- Makes one step on a stack of integers, topmost first. -/
def Step.run (stack : List Int) : Step → Option (List Int)
  | .push value => some (value :: stack)
  | .combine o =>
    match stack with
    | b :: a :: stack => some (o.apply a b :: stack)
    | _ => none

/-- The single value that a postfix program leaves. -/
def runPostfix (steps : List Step) : Option Int := do
  match ← steps.foldlM Step.run [] with
  | [value] => some value
  | _ => none

/-- The value of a constant expression, if all its parts have one. -/
def evaluate (known : Table Int) (expr : Text) : Except Numeral.Error (Option Int) := do
  match ← Token.tokenize expr with
  | none => return none
  | some [] => return none
  | some tokens => return (toPostfix known tokens).bind runPostfix

/-- A length as it stands between brackets: the value of an expression, if it is not negative.
A token of ASCII digits alone is read directly. -/
def resolveLength (known : Table Int) (token : Text) : Except Numeral.Error (Option Nat) := do
  let token := Text.trim token
  let value ←
    if !token.isEmpty && token.all Char.isDigit then
      (some ∘ Int.ofNat) <$> Numeral.read token
    else evaluate known token
  match value with
  | some (.ofNat n) => return some n
  | _ => return none

end ContractInterface.Expr
