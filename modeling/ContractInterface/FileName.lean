import ContractInterface.Path
import ContractInterface.Text.Template

/-!
# File names

A contract is named after its header, and its document after the contract.  In the name of a
document only ASCII letters, digits, underscores, hyphens and points stand; a replacement stands
for every other character, and runs of replacements shrink to one.
-/

namespace ContractInterface.FileName

/-! ### Headers -/

/-- The name of the contract that a header declares. -/
def contractName (header : Path) : String :=
  let name := header.name.toList
  String.ofList ((Text.dropSuffix? ".h".toList name).getD name)

/-- Whether a file is the header of a contract: its name starts with a capital letter and ends
with `.h`, and it is not the shared prelude.  A line end after the name does not count. -/
def isContractHeader (name prelude : String) : Bool :=
  let t := name.toList
  let core := (Text.dropSuffix? ['\n'] t).getD t
  name != prelude && core.head?.any Char.isUpper && !core.contains '\n' &&
    (Text.dropSuffix? ".h".toList core).isSome

/-! ### Sanitizing -/

/-- Whether a character may stand in the name of a document. -/
def isSafe (c : Char) : Bool :=
  c.isAlphanum || c == '_' || c == '-' || c == '.'

/-- A run of replacements at the front of a text: the replacement, with its last character
repeated.  Gives the run and what follows it. -/
def takeRun? (replacement t : Text) : Option (Text × Text) := do
  let last ← replacement.getLast?
  let rest ← Text.dropPrefix? replacement t
  some (replacement ++ rest.takeWhile (· == last), rest.dropWhile (· == last))

/-- Replaces every run of replacements, after passing over `skip` characters. -/
def shrinkFrom (replacement : Text) (pieces : List Template.Piece) : Nat → Text → Text
  | _, [] => []
  | skip + 1, _ :: t => shrinkFrom replacement pieces skip t
  | 0, c :: t =>
    match takeRun? replacement (c :: t) with
    | some (run, rest) =>
      Template.expand pieces run ++ shrinkFrom replacement pieces (t.length - rest.length) t
    | none => c :: shrinkFrom replacement pieces 0 t

/-- Whether one text occurs in another. -/
def occursIn (word : Text) : Text → Bool
  | [] => word.isEmpty
  | c :: t => Text.hasPrefix word (c :: t) || occursIn word t

/-- Shrinks the runs of replacements in a text, if there are any. -/
def shrink (replacement t : Text) : Except Template.Error Text :=
  if occursIn replacement t then
    if replacement.isEmpty then .error .empty
    else do return shrinkFrom replacement (← Template.pieces replacement) 0 t
  else .ok t

/-- What an empty name becomes. -/
def unnamed : String := "unnamed"

/-- A name in which only safe characters and replacements stand, with no replacement at its
ends. -/
def sanitize (replacement name : String) : Except Template.Error String :=
  if name.isEmpty then .ok unnamed
  else do
    let r := replacement.toList
    let replaced := name.toList.flatMap fun c => if isSafe c then [c] else r
    let shrunk ← shrink r replaced
    let core := Text.dropEndWhile r.contains (shrunk.dropWhile r.contains)
    return if core.isEmpty then unnamed else String.ofList core

/-! ### Documents -/

/-- A name in which only safe characters stand: runs of others, and of underscores, become one
underscore. -/
def safeName (name : String) : String :=
  match sanitize "_" name with
  | .ok safe => safe
  | .error _ => unnamed

/-- The name of the document of a contract. -/
def document (contract suffix : String) : String :=
  safeName contract ++ suffix

end ContractInterface.FileName
