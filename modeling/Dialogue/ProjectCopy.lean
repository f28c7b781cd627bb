import Dialogue.FileTree

/-!
# Copying a project

A project folder is copied with everything in it except the folders for artifacts, which are
left out wherever they are.  A file of that name is copied, and so is a project of that name.
-/

namespace Dialogue

inductive CopyFault where
  /-- the path of the project has no name at its end -/
  | noName (path : String)
  | unreadable (path : String) (fault : FileFault)
  | unwritable (path : String) (fault : FileFault)
  deriving DecidableEq, Repr

namespace CopyFault

def message : CopyFault → String
  | noName path => s!"Project path {path} has no file name."
  | unreadable path fault =>
    s!"Failed to scan project: IO error for operation on {path}: {fault.message}"
  | unwritable path fault => s!"Failed to copy project into {path}: {fault.message}"

end CopyFault

namespace ProjectCopy

/-- The name of folders that are left out. -/
def skippedName : String := "generated"

/-- An entry of a project that is left out: a folder of that name, or anything in one. -/
def isSkipped (names : Location) (entry : Entry) : Bool :=
  names.dropLast.contains skippedName
    || entry == .folder && names.getLast? == some skippedName

/-- The folders and files of a project that are copied, folders first. -/
def copied (tree : FileTree) (loc : Location) : List (Location × Entry) :=
  let kept := (tree.below loc).filter fun (names, entry) => !isSkipped names entry
  kept.filter (·.2 == .folder) ++ kept.filter (·.2 != .folder)

/-- Copies one entry of a project. -/
def copyEntry (source target : String) (tree : FileTree) (names : Location) (entry : Entry) :
    Except CopyFault FileTree :=
  let relative := "/".intercalate names
  let path := Path.join target relative
  match entry with
  | .folder =>
    match tree.makeFolders path with
    | (tree, none) => .ok tree
    | (_, some fault) => .error (.unwritable path fault)
  | .file _ => (tree.copyFile (Path.join source relative) path).mapError (.unwritable path)

/-- Copies entries in order. -/
def copyEntries (source target : String) (tree : FileTree) :
    List (Location × Entry) → Except CopyFault FileTree
  | [] => .ok tree
  | (names, entry) :: rest => do
    copyEntries source target (← copyEntry source target tree names entry) rest

/-- Copies the project at a path into a folder, and gives the name of the copy.  What is no
folder is copied as a file. -/
def run (tree : FileTree) (source into : String) : Except CopyFault (FileTree × String) :=
  match Path.fileName? source with
  | none => .error (.noName source)
  | some slug => do
    let entry ← (tree.entryAt source).mapError (.unreadable source)
    let loc ← (tree.locate source).mapError (.unreadable source)
    let target := Path.join into slug
    match entry with
    | .folder =>
      let tree' ← copyEntry source target tree [] .folder
      return (← copyEntries source target tree' (copied tree loc), slug)
    | .file _ =>
      let path := Path.join target ""
      return (← (tree.copyFile source path).mapError (.unwritable path), slug)

end ProjectCopy

end Dialogue
