import Metamodel.CommandLine.Run

/-! The program: it reads the files that a call may need, and carries out what `CommandLine.run`
says. -/

namespace Metamodel.Main

/-- The files at or below a path. -/
partial def filesAt (path : String) : IO (List (String × List UInt8)) := do
  let place := (← IO.currentDir) / path
  if ← place.isDir then
    let names := (← place.readDir).toList.map (·.fileName)
    return (← names.mapM fun name => filesAt (path ++ "/" ++ name)).flatten
  else if ← place.pathExists then
    return [(path, (← IO.FS.readBinFile place).toList)]
  else return []

/-- The places that a written path goes through, the last of them being where it leads. -/
def placesOf (path : String) : List String :=
  let parts := Path.parts path
  (List.range (parts.length + 1)).map fun n => "/".intercalate (parts.take n)

/-- The directories that a written path goes through, as far as they exist. -/
def directoriesAt (path : String) : IO (List Path) := do
  let here ← IO.currentDir
  let existing ← (placesOf path).filterM fun (place : String) => do return ← (here / place).isDir
  return existing.map Path.ofString

/-- The files that stand in the way of a written path. -/
def filesOnWay (path : String) : IO (List (String × List UInt8)) := do
  let here ← IO.currentDir
  let others ← (placesOf path).filterM fun (place : String) => do return !(← (here / place).isDir)
  return (← others.mapM filesAt).flatten

/-- The paths that an invocation reads from, and the one that it writes to. -/
def pathsOf (i : Invocation) : List String × Option String :=
  let names := Configuration.locations ++ i.settings.toList
  let settings := names ++ names.flatMap Configuration.alternatives
  match i.command with
  | .generate input output _ => (input :: settings, output)
  | .check input _ => (input :: settings, none)
  | .dump input output => (input :: settings, output)

/-- The part of the file system that an invocation may read or write. -/
def treeFor (i : Invocation) : IO FileTree := do
  let (inputs, output) := pathsOf i
  let found ← (inputs ++ output.toList).mapM filesAt
  let onWay ← (inputs ++ output.toList).mapM filesOnWay
  let directories ← (inputs ++ output.toList).mapM directoriesAt
  return { FileTree.ofFiles (found ++ onWay).flatten with emptyDirectories := directories.flatten }

end Metamodel.Main

open Metamodel in
def main (arguments : List String) : IO UInt32 := do
  let before ← (Arguments.parse? arguments).elim (pure {}) Main.treeFor
  let outcome := CommandLine.run before arguments
  IO.print outcome.output
  IO.eprint outcome.diagnostics
  for (path, content) in before.changes outcome.files do
    IO.FS.writeBinFile path.text ⟨content.toArray⟩
  return outcome.exitCode.toUInt32
