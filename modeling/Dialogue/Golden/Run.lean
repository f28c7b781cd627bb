import Dialogue.Golden.Case
import Dialogue.ProjectCopy

/-!
# Running golden cases

A golden case is run on a copy of its project, so that the project stays as it is.  What comes
out is compared with what is expected, and the first difference is told.
-/

namespace Dialogue

/-- Why a golden case could not be run, or what came out otherwise than expected. -/
inductive GoldenFault where
  | unreadable (path : String) (fault : FileFault)
  | malformed (path : String) (fault : Json.Fault)
  | otherSchema (found : String)
  | notCopied (fault : CopyFault)
  | unexpectedSuccess (expected : ObservedError)
  | unexpectedFailure (actual : Failure)
  | otherError (expected actual : ObservedError)
  | otherCount (expected : Nat) (actual : List ObservedGroup)
  | otherGroup (index : Nat) (expected actual : ObservedGroup)
  | missingLog (line : String) (logs : List String)
  | otherArtifact (group : String) (expected : Bool)

namespace GoldenFault

def message : GoldenFault → String
  | unreadable path fault => s!"Failed to read file {path}: {fault.message}"
  | malformed path fault => s!"Failed to parse testcase {path}: {fault.message}"
  | otherSchema found =>
    s!"Invalid testcase schema version \"{found}\", expected \"{GoldenCase.schema}\"."
  | notCopied fault => fault.message
  | unexpectedSuccess expected =>
    s!"Expected error {expected.code}, but the compile succeeded."
  | unexpectedFailure actual => s!"Compile failed unexpectedly: {actual.text}"
  | otherError expected actual =>
    s!"Error mismatch. expected={expected.encode.compact} actual={actual.encode.compact}"
  | otherCount expected actual =>
    let observed := (Json.array (actual.map (·.encode))).pretty
    s!"Expected group count {expected}, actual {actual.length}. observed={observed}"
  | otherGroup index expected actual =>
    s!"Group mismatch at index {index}. expected={expected.encode.compact} " ++
      s!"actual={actual.encode.compact}"
  | missingLog line logs =>
    let observed := "\n".intercalate logs
    s!"Log line missing: {line}. observed={observed}"
  | otherArtifact group expected =>
    let expectation := if expected then "exist" else "not exist"
    s!"Artifact for group \"{group}\" should {expectation}."

end GoldenFault

/-- What came out of a run. -/
structure GoldenReport where
  groups : List ObservedGroup
  error : Option Failure
  logs : List String
  /-- groups with an artifact after the run -/
  artifacts : List String

namespace GoldenCase

/-- The case in a file. -/
def read (tree : FileTree) (path : String) : Except GoldenFault GoldenCase := do
  let text ← (tree.readText path).mapError (.unreadable path)
  let c ← (decoder.decode text).mapError (.malformed path)
  if c.schemaVersion = schema then return c else throw (.otherSchema c.schemaVersion)

/-- What is observed of an answer. -/
def observe : Except CompileFailure CompileResult → GoldenReport
  | .ok (.report r) => ⟨r.groups.map .ofReport, none, r.logs, []⟩
  | .ok (.preview p) => ⟨[.ofPreview p], none, p.logs, []⟩
  | .error f => ⟨f.groups.map .ofReport, some f.failure, f.logs, []⟩

/-- Runs a case on a copy of the project at a path; the copy is made in the folder `scratch`. -/
def run (c : GoldenCase) (tree : FileTree) (project scratch : String) :
    Except GoldenFault GoldenReport := do
  let (tree, slug) ← (ProjectCopy.run tree project scratch).mapError .notCopied
  let base : Config := {}
  let config := { base with projectsDir := scratch }
  let request : Request := { project := slug, mode := c.mode, group := c.group }
  let answer := request.run config tree
  let report := observe answer.result
  let path (group : String) := config.artifactPath (config.projectDir slug) group
  return { report with
    artifacts := (report.groups.filter fun g => answer.tree.isFile (path g.slug)).map (·.slug) }

/-! ### Comparing -/

def checkError (expected : Option ObservedError) (actual : Option Failure) :
    Except GoldenFault Unit :=
  match expected, actual with
  | none, none => .ok ()
  | some e, none => .error (.unexpectedSuccess e)
  | none, some f => .error (.unexpectedFailure f)
  | some e, some f =>
    if e = .ofFailure f then .ok () else .error (.otherError e (.ofFailure f))

/-- Compares groups pairwise from an index on. -/
def checkPairs (index : Nat) : List ObservedGroup → List ObservedGroup → Except GoldenFault Unit
  | e :: es, a :: as =>
    if e = a then checkPairs (index + 1) es as else .error (.otherGroup index e a)
  | _, _ => .ok ()

def checkGroups (expected actual : List ObservedGroup) : Except GoldenFault Unit :=
  if expected.length = actual.length then checkPairs 0 expected actual
  else .error (.otherCount expected.length actual)

def checkLogs (logs : List String) : List String → Except GoldenFault Unit
  | [] => .ok ()
  | line :: rest => if line ∈ logs then checkLogs logs rest else .error (.missingLog line logs)

/-- A group has an artifact exactly if it succeeded and artifacts are kept. -/
def checkArtifacts (mode : Mode) (artifacts : List String) :
    List ObservedGroup → Except GoldenFault Unit
  | [] => .ok ()
  | g :: rest =>
    let expected := mode == .persist && g.status == .success
    if artifacts.contains g.slug = expected then checkArtifacts mode artifacts rest
    else .error (.otherArtifact g.slug expected)

/-- Compares a report with a case.  A case that expects an error need not say what becomes of the
groups. -/
def compare (c : GoldenCase) (r : GoldenReport) : Except GoldenFault Unit := do
  checkError c.expectedError r.error
  if c.expectedError.isNone || !c.expectedGroups.isEmpty then
    checkGroups c.expectedGroups r.groups
  checkLogs r.logs c.expectedLogs
  checkArtifacts c.mode r.artifacts r.groups

/-- Runs the case in a file on a project, and compares. -/
def assert (tree : FileTree) (project path scratch : String) : Except GoldenFault Unit := do
  let c ← read tree path
  c.compare (← c.run tree project scratch)

end GoldenCase

end Dialogue
