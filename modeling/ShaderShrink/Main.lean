import ShaderShrink.CommandLine.Run
import ShaderShrink.Disk.FileTree
import ShaderShrink.Text.Stamp
import Std.Time.DateTime.Timestamp

/-!
# The program

Reads the files that the arguments name, runs the program on a tree that holds them, and writes what
the run added to the tree. The program has no network, so every job ends with a transport failure,
and its clock stands still, since nothing that it does takes time.
-/

namespace ShaderShrink.CommandLine

/-- The names from the root down to the working directory. -/
def currentPlace : IO Place := do
  return (Path.pieces (toString (← IO.currentDir))).filter (!·.isEmpty)

/-- A tree with the directories from the root down to a place, which is the working directory. -/
def treeAt (place : Place) : FileTree :=
  ⟨(List.range place.length).map fun n => (place.take (n + 1), .directory), place⟩

/-- The text of a file, if there is one. -/
def readIfFile (path : String) : IO (Option String) := do
  try return some (← IO.FS.readFile path)
  catch _ => return none

/-- Adds the files with the given paths, as far as they are there, to a tree. -/
def addFiles (paths : List String) (t : FileTree) : IO FileTree :=
  paths.foldlM (fun t path => do
    match ← readIfFile path with
    | none => return t
    | some text =>
      let (_, t) := FileTree.createDirAll ((Path.parent? path).getD "") t
      return (FileTree.write path text t).2) t

/-- Writes the files and directories of a tree that another tree does not have. -/
def writeAdded (before after : FileTree) : IO Unit := do
  let added := after.entries.filter fun e => !before.entries.contains e
  for (place, entry) in added.mergeSort fun x y => x.1.length ≤ y.1.length do
    let path := "/" ++ "/".intercalate place
    match entry with
    | .directory => IO.FS.createDirAll path
    | .file text => IO.FS.writeFile path text

/-- The environment variables that the program asks for. -/
def readEnvironment : IO (String → Option String) := do
  let token ← IO.getEnv PipelineConfig.tokenVariable
  return fun name => if name = PipelineConfig.tokenVariable then token else none

/-- The stamp of the current time. -/
def currentStamp : IO String := do
  return Text.stamp (← Std.Time.Timestamp.now).toSecondsSinceUnixEpoch.val.toNat

end ShaderShrink.CommandLine

open ShaderShrink CommandLine in
/-- Runs the program on the files of this machine. -/
def main (arguments : List String) : IO UInt32 := do
  let tree ← addFiles arguments (treeAt (← currentPlace))
  let around : Surroundings FileTree := {
    environment := ← readEnvironment
    transport := .offline
    stamp := ← currentStamp
    clock := fun _ _ => 0 }
  let (ending, after) := runCommandLine around arguments tree
  writeAdded tree after
  IO.print ending.output
  if let some e := ending.error then
    IO.eprintln ("Error: " ++ e.message)
  return ending.exitCode.toUInt32
