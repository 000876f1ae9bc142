import ContractInterface.Text.Basic

/-!
# Paths

A path is a sequence of names below a root or below the working directory.  Empty components and
single points do not count; double points stay.  Two slashes in front denote a root of their own.
-/

namespace ContractInterface

/-- A path in a file system. -/
structure Path where
  /-- The slashes in front: none, one or two. -/
  root : String
  parts : List String
  deriving DecidableEq, Repr

namespace Path

/-- The root that a number of slashes in front denotes. -/
def rootOf (slashes : Nat) : String :=
  if slashes = 0 then "" else if slashes = 2 then "//" else "/"

/-- Reads a path. -/
def ofString (s : String) : Path :=
  let t := s.toList
  let names := (Text.splitWhere (· == '/') t).map String.ofList
  { root := rootOf (t.takeWhile (· == '/')).length
    parts := names.filter fun name => name != "" && name != "." }

/-- The text of a path; that of the working directory is a point. -/
def toString (p : Path) : String :=
  if p.root.isEmpty && p.parts.isEmpty then "." else p.root ++ "/".intercalate p.parts

instance : ToString Path := ⟨toString⟩

/-- The last name of a path. -/
def name (p : Path) : String :=
  p.parts.getLast?.getD ""

/-- The path without its last name. -/
def parent (p : Path) : Path :=
  { p with parts := p.parts.dropLast }

/-- Goes on from a path; a path with a root starts anew. -/
def join (p q : Path) : Path :=
  if q.root.isEmpty then { p with parts := p.parts ++ q.parts } else q

/-- Goes on from a path by a text. -/
def append (p : Path) (s : String) : Path :=
  p.join (ofString s)

end Path

end ContractInterface
