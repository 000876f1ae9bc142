import ContractInterface.Path
import ContractInterface.Text.Lines
import ContractInterface.Text.Utf8

/-!
# File trees

A file tree holds files and directories at their places below the root, and knows the working
directory from which relative paths start.  A directory can only be entered if it is there; the
root always is.
-/

namespace ContractInterface

/-- The place of a file or directory: the names that lead to it from the root. -/
abbrev Location := List String

/-- What is at a place. -/
inductive Node where
  | file (content : List UInt8)
  | directory
  /-- A device that is always empty and drops what is written to it. -/
  | sink
  deriving DecidableEq, Repr

/-- A file system with a working directory. -/
structure FileTree where
  nodes : List (Location × Node)
  cwd : Location
  deriving DecidableEq, Repr

namespace FileTree

/-! ### Errors -/

/-- Why the file system refuses an operation. -/
inductive Refusal where
  | notFound
  | exists
  | notADirectory
  | isADirectory
  | nameTooLong
  deriving DecidableEq, Repr

/-- The number of a refusal. -/
def Refusal.number : Refusal → Nat
  | .notFound => 2
  | .exists => 17
  | .notADirectory => 20
  | .isADirectory => 21
  | .nameTooLong => 36

/-- The wording of a refusal. -/
def Refusal.message : Refusal → String
  | .notFound => "No such file or directory"
  | .exists => "File exists"
  | .notADirectory => "Not a directory"
  | .isADirectory => "Is a directory"
  | .nameTooLong => "File name too long"

/-- Why an operation fails. -/
inductive Error where
  | refused (refusal : Refusal) (path : Path)
  /-- A null character cannot be part of a path. -/
  | nullByte
  deriving DecidableEq, Repr

/-- The wording of an error. -/
def Error.message : Error → String
  | .refused refusal path =>
    "[Errno " ++ ToString.toString refusal.number ++ "] " ++ refusal.message ++ ": " ++
      quoteString path.toString
  | .nullByte => "embedded null byte"

/-! ### Places -/

/-- What is at a place of a list of nodes. -/
def find? : List (Location × Node) → Location → Option Node
  | [], _ => none
  | (place, node) :: nodes, location => if place = location then some node else find? nodes location

/-- What is at a place; the root is a directory. -/
def get? (tree : FileTree) (location : Location) : Option Node :=
  if location.isEmpty then some .directory else find? tree.nodes location

/-- Puts a node at a place of a list of nodes. -/
def place : List (Location × Node) → Location → Node → List (Location × Node)
  | [], location, node => [(location, node)]
  | (there, old) :: nodes, location, node =>
    if there = location then (there, node) :: nodes else (there, old) :: place nodes location node

/-- Puts a node at a place. -/
def set (tree : FileTree) (location : Location) (node : Node) : FileTree :=
  { tree with nodes := place tree.nodes location node }

/-- The longest name that a directory can hold, in bytes. -/
def maxNameSize : Nat := 255

/-- The longest path that can be followed, in bytes. -/
def maxPathSize : Nat := 4095

/-- Follows names from a place; every place that is left must be a directory. -/
def walk (tree : FileTree) : Location → List String → Except Refusal Location
  | location, [] => .ok location
  | location, name :: names =>
    match tree.get? location with
    | none => .error .notFound
    | some (.file _) | some .sink => .error .notADirectory
    | some .directory =>
      if maxNameSize < name.utf8ByteSize then .error .nameTooLong
      else tree.walk (if name = ".." then location.dropLast else location ++ [name]) names

/-- The place that a path leads to; there need not be anything. -/
def locate (tree : FileTree) (p : Path) : Except Error Location :=
  if p.toString.toList.contains '\x00' then .error .nullByte
  else if maxPathSize < p.toString.utf8ByteSize then .error (.refused .nameTooLong p)
  else
    (tree.walk (if p.root.isEmpty then tree.cwd else []) p.parts).mapError fun refusal =>
      .refused refusal p

/-- What a path leads to.  That there is nothing is no error, but a path that is too long is. -/
def lookUp (tree : FileTree) (p : Path) : Except Error (Option Node) :=
  match tree.locate p with
  | .ok location => .ok (tree.get? location)
  | .error (.refused .nameTooLong q) => .error (.refused .nameTooLong q)
  | .error _ => .ok none

/-- Whether a path leads to something. -/
def doesExist (tree : FileTree) (p : Path) : Except Error Bool := do
  return (← tree.lookUp p).isSome

/-- Whether a path leads to a directory. -/
def isDirectory (tree : FileTree) (p : Path) : Except Error Bool := do
  return (← tree.lookUp p) == some .directory

/-- Whether a path leads to a file. -/
def isFile (tree : FileTree) (p : Path) : Except Error Bool := do
  match ← tree.lookUp p with
  | some (.file _) => return true
  | _ => return false

/-! ### Operations -/

/-- The content of a file. -/
def read (tree : FileTree) (p : Path) : Except Error (List UInt8) := do
  match tree.get? (← tree.locate p) with
  | none => throw (.refused .notFound p)
  | some .directory => throw (.refused .isADirectory p)
  | some .sink => return []
  | some (.file content) => return content

/-- Writes a file, whether or not there was one. -/
def write (tree : FileTree) (p : Path) (content : List UInt8) : Except Error FileTree := do
  let location ← tree.locate p
  match tree.get? location with
  | some .directory => throw (.refused .isADirectory p)
  | some .sink => return tree
  | _ => return tree.set location (.file content)

/-- The names of the entries of a directory, in the order of their code points. -/
def entries (tree : FileTree) (location : Location) : List String :=
  let names := tree.nodes.filterMap fun (place, _) =>
    if place.dropLast = location then place.getLast? else none
  names.mergeSort fun a b => a ≤ b

/-- Lists a directory. -/
def list (tree : FileTree) (p : Path) : Except Error (List String) := do
  let location ← tree.locate p
  match tree.get? location with
  | none => throw (.refused .notFound p)
  | some .directory => return tree.entries location
  | some _ => throw (.refused .notADirectory p)

/-- Creates a directory in a directory that is there. -/
def makeDirectory (tree : FileTree) (p : Path) : Except Error FileTree := do
  let location ← tree.locate p
  match tree.get? location with
  | none => return tree.set location .directory
  | some _ => throw (.refused .exists p)

/-- Creates a directory, unless one is there already.  A refusal counts only then; that
there is nothing above the directory always counts. -/
def provideDirectory (tree : FileTree) (p : Path) : Except Error FileTree :=
  match tree.makeDirectory p with
  | .ok tree => .ok tree
  | .error (.refused refusal q) => do
    if refusal ≠ .notFound && (← tree.isDirectory p) then return tree
    else throw (.refused refusal q)
  | .error e => .error e

/-- How a change ends, and the tree that is left; a change that fails leaves the tree as it was. -/
def change (tree : FileTree) : Except Error FileTree → Except Error Unit × FileTree
  | .ok tree => (.ok (), tree)
  | .error e => (.error e, tree)

/-- Makes sure that a directory is there, and the directories above it, of which there are at
most the given number.  Directories that were created stay also when that fails. -/
def makeWithin : Nat → FileTree → Path → Except Error Unit × FileTree
  | 0, tree, p => tree.change (tree.provideDirectory p)
  | depth + 1, tree, p =>
    match tree.provideDirectory p with
    | .error (.refused .notFound _) =>
      match makeWithin depth tree p.parent with
      | (.ok (), tree) => tree.change (tree.provideDirectory p)
      | failed => failed
    | result => tree.change result

/-- Makes sure that a directory and those above it are there, and tells how that ends. -/
def makeDirectories (tree : FileTree) (p : Path) : Except Error Unit × FileTree :=
  makeWithin p.parts.length tree p

/-- The tree in which a directory and those above it are there. -/
def ensureDirectory (tree : FileTree) (p : Path) : Except Error FileTree :=
  let (result, tree) := tree.makeDirectories p
  result.map fun _ => tree

end FileTree

end ContractInterface
