import ContractInterface.Header.Comment

/-!
# Statements of a struct body

The statements of a body end at the semicolons outside braces.  A method with a body ends at its
closing brace instead, since no semicolon follows it; it is recognised by a parenthesis before
its first brace.
-/

namespace ContractInterface.Header

/-- Whether a statement that ends with a closing brace is a method. -/
def isMethod (statement : Text) : Bool :=
  (statement.takeWhile (· != '{')).contains '('

/-- The statements from a position on, given the number of open braces and the statement so
far, last character first.  A brace that closes nothing is passed over. -/
def splitFrom : Nat → Text → Text → List Text
  | _, current, [] => [current.reverse]
  | depth, current, c :: t =>
    if c = ';' && depth == 0 then current.reverse :: splitFrom 0 [] t
    else if c = '{' then splitFrom (depth + 1) (c :: current) t
    else if c = '}' then
      if depth - 1 = 0 && isMethod (c :: current).reverse then
        (c :: current).reverse :: splitFrom 0 [] t
      else splitFrom (depth - 1) (c :: current) t
    else splitFrom depth (c :: current) t

/-- The statements of a struct body, with blanks collapsed and empty ones left out. -/
def statements (body : Text) : List Text :=
  ((splitFrom 0 [] (blankDirectives (stripComments body))).map Text.collapse).filter
    fun s => !s.isEmpty

end ContractInterface.Header
