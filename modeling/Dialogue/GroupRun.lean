import Dialogue.Compile
import Dialogue.Project
import Dialogue.SourceUnit

/-!
# Running a group

The files of a group run one after the other, each on its own.  Their actions together are
compiled to a machine, unless there are none.  The log has a line for each file that ran and for
each warning of the compiler.
-/

namespace Dialogue

/-- What a run of something gives, whether it fails or not. -/
structure Told (α : Type) where
  logs : List String
  events : List Event
  result : Except Failure α

namespace GroupRun

def logLine (group tag text : String) : String := s!"[{group}] {tag} {text}"

/-- What the log says of a file that ran. -/
def fileText (options : ScriptOptions) (file : String) (run : UnitRun) : String :=
  let count := s!"({run.actions.length} action(s))"
  match run.outcome, run.outcome.reason? options with
  | .skipped, some reason => s!"{file}: {reason}"
  | _, some reason => s!"{file}: {reason} {count}"
  | _, none => s!"{file} {count}"

def fileLine (options : ScriptOptions) (group file : String) (run : UnitRun) : String :=
  logLine group run.outcome.tag (fileText options file run)

/-- A unit that is passed over or has no entry point is told of. -/
def incomplete (options : ScriptOptions) (unit : UnitName) (run : UnitRun) : List Event :=
  match run.outcome.reason? options with
  | some reason =>
    [⟨.warn, "source unit incomplete", [("unit", unit.text), ("reason", reason)]⟩]
  | none => []

/-- Runs files in order up to the first that fails, and gives their actions together. -/
def files (options : ScriptOptions) (tree : FileTree) (p : Project) (group : String) :
    List String → Told (List Action)
  | [] => ⟨[], [], .ok []⟩
  | file :: rest =>
    let unit : UnitName := ⟨p.slug, group, file⟩
    match SourceUnit.run options tree unit (Path.join p.dir file) with
    | (events, .error f) => ⟨[], events, .error f⟩
    | (events, .ok run) =>
      let later := files options tree p group rest
      { logs := fileLine options group file run :: later.logs
        events := events ++ incomplete options unit run ++ later.events
        result := later.result.map (run.actions ++ ·) }

def emptyEvent (p : Project) (group : String) : Event :=
  ⟨.info, "group is empty", [("project", p.slug), ("group", group)]⟩

def warningEvent (p : Project) (group warning : String) : Event :=
  ⟨.warn, warning, [("project", p.slug), ("group", group)]⟩

def compiledEvent (p : Project) (group : String) (actions : List Action) (c : Compilation) :
    Event :=
  ⟨.info, "group compiled",
    [("project", p.slug), ("group", group), ("actions", toString actions.length),
      ("states", toString c.machine.states.length)]⟩

/-- Compiles what the files of a group recorded, if anything. -/
def compileActions (p : Project) (group : String) (actions : List Action) :
    Told (Option Compilation) :=
  if actions.isEmpty then ⟨[], [emptyEvent p group], .ok none⟩
  else
    match compile actions with
    | .error fault => ⟨[], [], .error fault.failure⟩
    | .ok c =>
      { logs := c.warnings.map (logLine group "WARN")
        events := c.warnings.map (warningEvent p group) ++ [compiledEvent p group actions c]
        result := .ok (some c) }

/-- Runs a group; there is no machine if its files recorded nothing. -/
def run (options : ScriptOptions) (tree : FileTree) (p : Project) (g : ScriptGroup) :
    Told (Option Compilation) :=
  let ran := files options tree p g.slug g.sourceFiles
  match ran.result with
  | .error f => ⟨ran.logs, ran.events, .error f⟩
  | .ok actions =>
    let compiled := compileActions p g.slug actions
    ⟨ran.logs ++ compiled.logs, ran.events ++ compiled.events, compiled.result⟩

end GroupRun

end Dialogue
