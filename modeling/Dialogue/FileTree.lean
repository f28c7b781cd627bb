import Dialogue.Text.Path

/-!
# Folders and files

A file tree is a value: the files and folders below a working folder, each at the list of names
that leads to it.  Paths are walked the way an operating system walks them: every part but the
last must be a folder, and `..` leaves the folder it stands in.

The operations keep to the names they are given: `lookup_put_of_ne` says that putting an entry
at one location changes what no other location holds.
-/

namespace Dialogue

/-- What a file holds: text, or bytes that are no text. -/
inductive Content where
  | text (decoded : String)
  | bytes (raw : List UInt8)
  deriving DecidableEq, Repr

/-- Bytes as content; well-formed UTF-8 is text. -/
def Content.ofBytes (bytes : List UInt8) : Content :=
  match String.fromUTF8? ⟨bytes.toArray⟩ with
  | some decoded => .text decoded
  | none => .bytes bytes

def Content.toBytes : Content → List UInt8
  | .text decoded => decoded.toUTF8.toList
  | .bytes raw => raw

/-- Names from the working folder down.  What lies above the working folder is reached through
`..` in front, and what is named from the root through `/`. -/
abbrev Location := List String

/-- The folder around a location. -/
def Location.up (loc : Location) : Location :=
  match loc.getLast? with
  | none | some ".." => loc ++ [".."]
  | some "/" => loc
  | some _ => loc.dropLast

/-- The location that steps lead to from a folder, whatever is there. -/
def Location.follow (here : Location) : List Path.Step → Location
  | [] => here
  | .root :: rest => follow ["/"] rest
  | .here :: rest => follow here rest
  | .up :: rest => follow here.up rest
  | .down name :: rest => follow (here ++ [name]) rest

/-- The working folder or a folder above it. -/
def Location.isAbove (loc : Location) : Bool := loc == ["/"] || loc.all (· == "..")

/-- A path to a location. -/
def Location.path (loc : Location) : String := loc.foldl Path.join ""

inductive Entry where
  | file (content : Content)
  | folder
  deriving DecidableEq, Repr

/-- Why an operation on files failed. -/
inductive FileFault where
  | notFound
  | exists
  | notFolder
  | isFolder
  | nameTooLong
  | nulInName
  | notText
  deriving DecidableEq, Repr

def FileFault.message : FileFault → String
  | .notFound => "No such file or directory (os error 2)"
  | .exists => "File exists (os error 17)"
  | .notFolder => "Not a directory (os error 20)"
  | .isFolder => "Is a directory (os error 21)"
  | .nameTooLong => "File name too long (os error 36)"
  | .nulInName => "file name contained an unexpected NUL byte"
  | .notText => "stream did not contain valid UTF-8"

/-- The files and folders below the working folder.  That one is there without an entry, and so
are the folders above it. -/
structure FileTree where
  entries : List (Location × Entry) := []
  deriving DecidableEq, Repr, Inhabited

namespace FileTree

/-! ### Entries -/

/-- The entry at a location. -/
def lookup (t : FileTree) (loc : Location) : Option Entry :=
  if loc.isAbove then some .folder else t.entries.lookup loc

/-- Puts an entry at a location, in the place of any there. -/
def put (t : FileTree) (loc : Location) (entry : Entry) : FileTree :=
  ⟨t.entries.filter (·.1 != loc) ++ [(loc, entry)]⟩

/-- Takes away a location and everything below it. -/
def remove (t : FileTree) (loc : Location) : FileTree :=
  ⟨t.entries.filter fun e => !loc.isPrefixOf e.1⟩

theorem lookup_filter_ne (es : List (Location × Entry)) {p q : Location} (h : q ≠ p) :
    (es.filter (·.1 != p)).lookup q = es.lookup q := by
  induction es with
  | nil => rfl
  | cons e es ih =>
    obtain ⟨k, x⟩ := e
    by_cases hk : k = p
    · subst hk
      have : (q == k) = false := by simpa using h
      simp [List.lookup_cons, this, ih]
    · by_cases hq : q = k
      · subst hq; simp [hk]
      · have : (q == k) = false := by simpa using hq
        simp [hk, List.lookup_cons, this, ih]

theorem lookup_filter_self (es : List (Location × Entry)) (p : Location) :
    (es.filter (·.1 != p)).lookup p = none := by
  induction es with
  | nil => rfl
  | cons e es ih =>
    obtain ⟨k, x⟩ := e
    by_cases hk : k = p
    · simp [hk, ih]
    · have : (p == k) = false := by simpa using fun h : p = k => hk h.symm
      simp [hk, List.lookup_cons, this, ih]

theorem lookup_put_of_ne (t : FileTree) {p q : Location} (entry : Entry) (h : q ≠ p) :
    (t.put p entry).lookup q = t.lookup q := by
  have hq : (q == p) = false := by simpa using h
  simp [lookup, put, List.lookup_append, lookup_filter_ne _ h, List.lookup_cons, hq]

theorem lookup_put_self (t : FileTree) {p : Location} (entry : Entry) (h : p.isAbove = false) :
    (t.put p entry).lookup p = some entry := by
  simp [lookup, put, List.lookup_append, lookup_filter_self, h]

/-! ### Walking a path -/

/-- How many bytes the name of a file or folder may have. -/
def longestName : Nat := 255

/-- How many bytes a path may have. -/
def longestPath : Nat := 4095

/-- Refuses a path that can lead nowhere, whatever is there. -/
def checkPath (path : String) : Except FileFault Unit :=
  if path.toList.contains '\x00' then .error .nulInName
  else if longestPath < path.utf8ByteSize then .error .nameTooLong
  else if path.isEmpty then .error .notFound
  else .ok ()

/-- Walks on from the folder at `here`.  The last name may be missing; anything else on the way
must be a folder. -/
def walk (t : FileTree) (here : Location) : List Path.Step → Except FileFault Location
  | [] => .ok here
  | step :: rest =>
    match step with
    | .root => walk t ["/"] rest
    | .here => walk t here rest
    | .up => walk t here.up rest
    | .down name =>
      let there := here ++ [name]
      if longestName < name.utf8ByteSize then .error .nameTooLong
      else if rest = [] then .ok there
      else
        match t.lookup there with
        | some .folder => walk t there rest
        | some (.file _) => .error .notFolder
        | none => .error .notFound

/-- A path with a slash or a dot at its end leads to a folder only. -/
def endsInFolder (path : String) : Bool := path.endsWith "/" || Path.endsInDot path

/-- The location a path leads to. -/
def locate (t : FileTree) (path : String) : Except FileFault Location := do
  checkPath path
  let found ← t.walk [] (Path.steps path)
  match endsInFolder path, t.lookup found with
  | true, some (.file _) => throw .notFolder
  | _, _ => pure found

/-- The entry a path leads to. -/
def entryAt (t : FileTree) (path : String) : Except FileFault Entry := do
  match t.lookup (← t.locate path) with
  | some entry => pure entry
  | none => throw .notFound

def pathExists (t : FileTree) (path : String) : Bool := (t.entryAt path).isOk

def isFolder (t : FileTree) (path : String) : Bool :=
  match t.entryAt path with
  | .ok .folder => true
  | _ => false

def isFile (t : FileTree) (path : String) : Bool :=
  match t.entryAt path with
  | .ok (.file _) => true
  | _ => false

/-! ### Reading and writing -/

/-- The content of the file at a path. -/
def read (t : FileTree) (path : String) : Except FileFault Content := do
  match ← t.entryAt path with
  | .file content => pure content
  | .folder => throw .isFolder

/-- The text of the file at a path. -/
def readText (t : FileTree) (path : String) : Except FileFault String := do
  match ← t.read path with
  | .text decoded => pure decoded
  | .bytes _ => throw .notText

/-- Where a file can be written: the folder that it goes into must be there, and a path with a
slash or a dot at its end names no file. -/
def vacancyForFile (t : FileTree) (path : String) : Except FileFault Location := do
  checkPath path
  let found ← t.walk [] (Path.steps path)
  match t.lookup found, Path.endsInDot path with
  | some .folder, _ => throw .isFolder
  | some (.file _), true => throw .notFolder
  | none, true => throw .notFound
  | _, false => if path.endsWith "/" then throw .isFolder else pure found

/-- Writes a file. -/
def write (t : FileTree) (path : String) (content : Content) : Except FileFault FileTree := do
  return t.put (← t.vacancyForFile path) (.file content)

/-- Copies a file.  The target is emptied before the source is read, so a file that is copied
onto itself is lost. -/
def copyFile (t : FileTree) (source target : String) : Except FileFault FileTree := do
  let _ ← t.read source
  let t ← t.write target (.text "")
  t.write target (← t.read source)

/-! ### Making folders -/

/-- Where steps lead to a folder that can be made: nothing may be there, but the folder around it
must be.  Steps that end in a dot name what stands inside the folder before it; it is there if
that folder is, and cannot be made. -/
def vacancy (t : FileTree) (endsInDot : Bool) (steps : List Path.Step) :
    Except FileFault Location := do
  let found ← t.walk [] steps
  match endsInDot, steps.getLast?, t.lookup found with
  | true, some (.down _), some (.file _) => throw .notFolder
  | true, some (.down _), none => throw .notFound
  | false, some (.down _), none => pure found
  | _, _, _ => throw .exists

/-- Steps lead to a folder. -/
def leadsToFolder (t : FileTree) (steps : List Path.Step) : Bool :=
  match t.walk [] steps with
  | .ok found => t.lookup found == some .folder
  | .error _ => false

/-- Makes a folder at the end of steps; one that is there already is as good. -/
def makeFolder (t : FileTree) (endsInDot : Bool) (steps : List Path.Step) :
    FileTree × Option FileFault :=
  match t.vacancy endsInDot steps with
  | .ok loc => (t.put loc .folder, none)
  | .error fault => (t, if t.leadsToFolder steps then none else some fault)

/-- Makes a folder at the end of steps, and the folders above it where they are missing. -/
def makeFoldersAlong (t : FileTree) (endsInDot : Bool) (steps : List Path.Step) :
    FileTree × Option FileFault :=
  if _ : steps = [] then (t, none)
  else
    match t.makeFolder endsInDot steps with
    | (t, some .notFound) =>
      match makeFoldersAlong t false steps.dropLast with
      | (t, none) => t.makeFolder endsInDot steps
      | failed => failed
    | made => made
termination_by steps.length
decreasing_by
  rw [List.length_dropLast]
  have := List.length_pos_iff.2 ‹steps ≠ []›
  omega

/-- Makes a folder and the folders above it, where they are not there yet.  What was made before
a fault stays. -/
def makeFolders (t : FileTree) (path : String) : FileTree × Option FileFault :=
  match checkPath path with
  | .error .notFound => (t, none)
  | .error fault => (t, some fault)
  | .ok _ => t.makeFoldersAlong (Path.endsInDot path) (Path.steps path)

/-! ### Everything at once -/

/-- The entries below a location, each at the names that lead to it from there. -/
def below (t : FileTree) (loc : Location) : List (Location × Entry) :=
  t.entries.filterMap fun (l, entry) =>
    if loc.isPrefixOf l && l.length != loc.length then some (l.drop loc.length, entry) else none

/-- A file with the folders above it, whatever was in the way. -/
def place (t : FileTree) (loc : Location) (entry : Entry) : FileTree :=
  let above := (List.range loc.length).tail.map loc.take
  let t := above.foldl (fun t p => if t.lookup p = some .folder then t else t.put p .folder) t
  match entry, t.lookup loc with
  | .folder, some .folder => t
  | _, _ => t.put loc entry

/-- The entries of a tree that an older tree does not have. -/
def changes (new old : FileTree) : List (Location × Entry) :=
  new.entries.filter fun (loc, entry) => old.lookup loc != some entry

end FileTree

end Dialogue
