import Dialogue.Failure
import Dialogue.FileTree
import Dialogue.Script.Execution
import Dialogue.Script.Parser
import Dialogue.Script.Simplified

/-!
# Source units

A source unit is one script file of a group.  Running it reads the file, executes the script,
and gives the actions that the script recorded, all of them or, if anything fails, none.
-/

namespace Dialogue

/-- A source unit is named by its project, its group and its file. -/
structure UnitName where
  project : String
  group : String
  file : String
  deriving DecidableEq, Repr

def UnitName.text (u : UnitName) : String := u.project ++ "/" ++ u.group ++ "/" ++ u.file

/-- How scripts are executed. -/
structure ScriptOptions where
  entryPoint : String := "story"
  /-- how many operations a script may carry out; none and zero set no bound -/
  maxOperations : Option Nat := none
  deriving DecidableEq, Repr

/-- How running a unit came out. -/
inductive Outcome where
  | completed
  | skipped
  | noEntryPoint
  deriving DecidableEq, Repr

namespace Outcome

/-- How the outcome is marked in a log. -/
def tag : Outcome → String
  | completed => "OK"
  | skipped => "SKIP"
  | noEntryPoint => "WARN"

/-- Why the unit is incomplete, if it is. -/
def reason? (options : ScriptOptions) : Outcome → Option String
  | completed => none
  | skipped => some "not found"
  | noEntryPoint => some s!"no entry point `{options.entryPoint}()`"

end Outcome

/-- What a unit that did not fail gives. -/
structure UnitRun where
  outcome : Outcome
  actions : List Action

namespace SourceUnit

def readFailure (path : String) (fault : FileFault) : Failure where
  kind := .internal
  code := "SANDBOX_READ_ERROR"
  message := s!"Cannot read \"{path}\": {fault.message}"

def syntaxFailure (unit : UnitName) (fault : Script.SyntaxFault) : Failure where
  kind := .internal
  code := "SANDBOX_PARSE_ERROR"
  message := s!"Script \"{unit.text}\" does not parse: {fault.text}"

def scriptFailure (unit : UnitName) (fault : Script.Fault) : Failure where
  kind := .internal
  code := "SANDBOX_EVAL_ERROR"
  message := s!"Script \"{unit.text}\" failed: {fault.text unit.text}"

def unbalanced (unit : UnitName) : Failure where
  kind := .internal
  code := "SANDBOX_RECORDER_UNBALANCED"
  message := s!"Script \"{unit.text}\" left a conditional block open."

def missing (unit : UnitName) (path : String) : Event :=
  ⟨.debug, "source unit missing", [("unit", unit.text), ("path", path)]⟩

def executed (unit : UnitName) (e : Script.Execution) : Event :=
  ⟨.debug, "source unit executed",
    [("unit", unit.text), ("appended", toString e.actions.length),
      ("has_entry_point", toString e.hasEntryPoint)]⟩

def ofExecution (e : Script.Execution) : UnitRun :=
  ⟨if e.hasEntryPoint then .completed else .noEntryPoint, e.actions⟩

/-- Runs the source text of a unit. -/
def runSource (options : ScriptOptions) (unit : UnitName) (source : String) :
    List Event × Except Failure UnitRun :=
  match Script.parse source with
  | .error fault => ([], .error (syntaxFailure unit fault))
  | .ok program =>
    let setting : Script.Setting :=
      { program := program.simplified, unit := unit.text,
        maxOperations := options.maxOperations.getD 0 }
    match Script.execute setting options.entryPoint with
    | (events, .error fault) => (events, .error (scriptFailure unit fault))
    | (events, .ok e) =>
      if e.openBlocks = 0 then (events ++ [executed unit e], .ok (ofExecution e))
      else (events, .error (unbalanced unit))

/-- Runs the unit whose source is at a path.  A unit without a source is passed over. -/
def run (options : ScriptOptions) (tree : FileTree) (unit : UnitName) (path : String) :
    List Event × Except Failure UnitRun :=
  if tree.pathExists path then
    match tree.readText path with
    | .error fault => ([], .error (readFailure path fault))
    | .ok source => runSource options unit source
  else ([missing unit path], .ok ⟨.skipped, []⟩)

end SourceUnit

end Dialogue
