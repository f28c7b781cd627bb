import Dialogue.Command

/-!
# The program

Reads the command line and the project folder, carries out the command on the tree that was
read, and writes back what the command left behind.  What is answered goes to standard output,
what happens to standard error.
-/

namespace Dialogue.Program

/-- Adds a folder on disk, and what lies in it, to a tree. -/
partial def readFolder (path : String) (loc : Location) (tree : FileTree) : IO FileTree := do
  let folder := (← IO.currentDir) / path
  let mut tree := tree.place loc .folder
  for found in ← folder.readDir do
    let there := loc ++ [found.fileName]
    if ← found.path.isDir then
      tree ← readFolder (Path.join path found.fileName) there tree
    else
      let bytes ← IO.FS.readBinFile found.path
      tree := tree.place there (.file (.ofBytes bytes.toList))
  return tree

/-- The tree with the folder of the project a command names, if it is there. -/
def readProject (c : Command) : IO FileTree := do
  let dir := c.config.projectDir c.request.project
  if isSlug c.request.project && (← ((← IO.currentDir) / dir).isDir) then
    readFolder dir (Location.follow [] (Path.steps dir)) {}
  else return {}

/-- Writes what is new or changed in a tree. -/
def writeChanges (old new : FileTree) : IO Unit := do
  for (loc, entry) in new.changes old do
    match entry with
    | .folder => IO.FS.createDirAll (Location.path loc)
    | .file content => IO.FS.writeBinFile (Location.path loc) ⟨content.toBytes.toArray⟩

/-- Carries out a command on the files on disk. -/
def run (c : Command) : IO UInt32 := do
  let tree ← readProject c
  let answer := c.run tree
  for line in c.eventLines answer.events do IO.eprintln line
  writeChanges tree answer.tree
  IO.print (Command.output answer)
  return UInt32.ofNat (Command.exitCode answer.result)

end Dialogue.Program

open Dialogue in
def main (args : List String) : IO UInt32 := do
  match Command.parse args with
  | .ok c => Program.run c
  | .error fault =>
    IO.eprintln ("error: " ++ fault.message)
    return UInt32.ofNat Command.usageExitCode
