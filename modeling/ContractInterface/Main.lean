import ContractInterface.Program.CommandLine
import Std.Time

/-!
# The executable

The logic of the program runs on a value that stands for the outside world.  This module copies
the part of the world that a run can look at into such a value, runs the program on it, and then
writes what has changed back.
-/

namespace ContractInterface.Main

/-! ### Looking at the world -/

/-- The names of the entries of a directory, if it is one. -/
def listNames? (p : Path) : IO (Option (List String)) := do
  let place : IO.FS.DirEntry := ⟨p.toString, ""⟩
  match ← place.root.readDir.toBaseIO with
  | .ok entries => return some (entries.toList.map IO.FS.DirEntry.fileName)
  | .error _ => return none

/-- What is at a path; what is neither a file nor a directory holds nothing. -/
def look? (p : Path) : IO (Option Node) := do
  let place : IO.FS.DirEntry := ⟨p.toString, ""⟩
  match ← place.root.metadata.toBaseIO with
  | .error _ => return none
  | .ok metadata =>
    match metadata.type with
    | .dir => return some .directory
    | .other => return some .sink
    | .file | .symlink =>
      match ← (IO.FS.readBinFile p.toString).toBaseIO with
      | .ok bytes => return some (.file bytes.toList)
      | .error _ => return none

/-- Copies what is at a path. -/
def copyNode (tree : FileTree) (p : Path) : IO FileTree := do
  match tree.locate p, ← look? p with
  | .ok location, some node => return tree.set location node
  | _, _ => return tree

/-- Copies the directories above a path, from the outermost one on, and what is at the path.  Of a
directory the files in it are copied too. -/
def copyPath (tree : FileTree) (p : Path) : IO FileTree := do
  let mut tree := tree
  for n in List.range p.parts.length do
    tree ← copyNode tree { p with parts := p.parts.take n }
  tree ← copyNode tree p
  for name in (← listNames? p).getD [] do
    tree ← copyNode tree (p.append name)
  return tree

/-- The values of some variables. -/
def environmentOf (names : List String) : IO (Table String) := do
  let mut environment : Table String := []
  for name in names do
    if let some value ← IO.getEnv name then
      environment := environment.insert name value
  return environment

/-- The files that are known before the arguments are: the working directory and the environment
file in it. -/
def startTree : IO FileTree := do
  let cwd := Path.ofString (← IO.currentDir).toString
  let mut tree : FileTree := ⟨[], cwd.parts⟩
  for n in List.range cwd.parts.length do
    tree := tree.set (cwd.parts.take (n + 1)) .directory
  copyNode tree CommandLine.environmentFile

/-- The names of the variables that a run can look at. -/
def namesToLookUp (tree : FileTree) : List String :=
  let mentioned :=
    match tree.readText CommandLine.environmentFile with
    | .ok text => EnvFile.mentioned text
    | .error _ => []
  EnvFile.switchName :: CompilerSettings.variableNames ++ Config.variableNames ++ mentioned

/-- The present time.  A run is over as soon as it is evaluated, so its steps take no time. -/
def readClock : IO Clock := do
  let now ← Std.Time.Timestamp.now
  let utc := Std.Time.DateTime.ofTimestampWithZone now Std.Time.TimeZone.UTC
  let localTime ← Std.Time.PlainDateTime.now
  return ⟨utc.format "uuuu-MM-dd'T'HH:mm:ss.SSS'Z'", localTime.format "uuuuMMdd'_'HHmmss", "0.000",
    "0.0"⟩

/-- The part of the world that a run with given arguments can look at. -/
def observe (args : List String) : IO World := do
  let mut files ← startTree
  let environment ← environmentOf (namesToLookUp files)
  if let .ok invocation := CommandLine.parse args then
    if let .ok prepared := invocation.prepare files environment then
      for path in invocation.paths prepared.config do
        files ← copyPath files path
  return ⟨files, environment, ← readClock, [], Progress.start⟩

/-! ### Changing the world -/

/-- Writes back what differs from the files before a run. -/
def writeBack (before after : FileTree) : IO Unit := do
  for (location, node) in after.nodes do
    let path : Path := ⟨"/", location⟩
    if before.get? location != some node then
      match node with
      | .directory => IO.FS.createDirAll path.toString
      | .sink => pure ()
      | .file content => IO.FS.writeBinFile path.toString ⟨content.toArray⟩

/-- Runs the program and returns its exit code. -/
def run (args : List String) : IO UInt32 := do
  let world ← observe args
  match CommandLine.run args world with
  | .error failure =>
    IO.eprintln failure.message
    return 1
  | .ok outcome =>
    writeBack world.files outcome.files
    IO.print (String.ofList outcome.output)
    for line in outcome.console do
      IO.eprintln line
    return UInt32.ofNat outcome.exitCode

end ContractInterface.Main

/-- The entry point of the executable. -/
def main (args : List String) : IO UInt32 :=
  ContractInterface.Main.run args
