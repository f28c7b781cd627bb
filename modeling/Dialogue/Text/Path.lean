/-!
# Paths

A path is text with parts between slashes.  Joining keeps the text as it is written; what the
parts mean is read off by `steps`, where empty parts and inner dots have no meaning.
-/

namespace Dialogue.Path

/-- `rest` seen from `base`.  An absolute `rest` stands for itself. -/
def join (base rest : String) : String :=
  if rest.startsWith "/" then rest
  else if base.isEmpty || base.endsWith "/" then base ++ rest
  else base ++ "/" ++ rest

/-- One step of a walk along a path. -/
inductive Step where
  | root
  | here
  | up
  | down (name : String)
  deriving DecidableEq, Repr

/-- The parts of a text between slashes. -/
def parts : List Char → List (List Char)
  | [] => [[]]
  | c :: rest =>
    if c = '/' then [] :: parts rest
    else
      match parts rest with
      | part :: more => (c :: part) :: more
      | [] => [[c]]

/-- The step one part stands for; an empty part and a dot are none. -/
def Step.ofPart (part : List Char) : Option Step :=
  if part.isEmpty || part == ['.'] then none
  else if part == ['.', '.'] then some .up
  else some (.down (String.ofList part))

/-- The steps of a path.  Only a leading dot is a step of its own. -/
def steps (path : String) : List Step :=
  let ps := parts path.toList
  let lead : List Step :=
    if path.startsWith "/" then [.root] else if ps.head? == some ['.'] then [.here] else []
  lead ++ ps.filterMap Step.ofPart

/-- The last part of a path is a dot, slashes after it apart. -/
def endsInDot (path : String) : Bool :=
  ((parts path.toList).filter (!·.isEmpty)).getLast? == some ['.']

/-- The name a path ends in, unless its last step is no name. -/
def fileName? (path : String) : Option String :=
  match (steps path).getLast? with
  | some (.down name) => some name
  | _ => none

/-- A path that stays below the folder it is read from: not empty, not absolute (a leading
backslash counts as one), and never a step up. -/
def isContained (path : String) : Bool :=
  !path.isEmpty && !path.startsWith "/" && !path.startsWith "\\"
    && (steps path).all fun
      | .here | .down _ => true
      | .root | .up => false

end Dialogue.Path
