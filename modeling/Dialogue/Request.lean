import Dialogue.GroupRun
import Dialogue.Report

/-!
# Requests

A request asks for a project to be compiled: its machines are kept as artifacts, or only
checked, or the machine of one group is shown.  Groups are compiled in order, and the first
failure ends the request; groups before it stay as they are.

The files of the project are a value here, and so is what a request leaves behind: only keeping
an artifact changes them.
-/

namespace Dialogue

inductive Mode where
  | persist
  | preview
  | check
  deriving DecidableEq, Repr

namespace Mode

def names : List (String × Mode) := [("persist", persist), ("preview", preview), ("check", check)]

def text : Mode → String
  | persist => "persist"
  | preview => "preview"
  | check => "check"

/-- The name of the mode in events. -/
def label : Mode → String
  | persist => "Persist"
  | preview => "Preview"
  | check => "Check"

end Mode

structure Request where
  project : String
  mode : Mode
  /-- only this group -/
  group : Option String := none
  deriving DecidableEq, Repr

/-- What a request that does not fail answers. -/
inductive CompileResult where
  | report (report : Report)
  | preview (preview : Preview)

namespace CompileResult

def logs : CompileResult → List String
  | report r => r.logs
  | preview p => p.logs

def encode : CompileResult → Json
  | report r => r.encode
  | preview p => p.encode

end CompileResult

/-- What a request leaves behind. -/
structure Answer where
  tree : FileTree
  events : List Event
  result : Except CompileFailure CompileResult

def Config.scriptOptions (c : Config) : ScriptOptions :=
  { entryPoint := c.entryPoint, maxOperations := c.maxOperations }

/-! ### Artifacts -/

namespace Artifact

def unwritable (path : String) (fault : FileFault) : Failure where
  kind := .internal
  code := "ARTIFACT_WRITE_ERROR"
  message := s!"Cannot write {path}: {fault.message}"

def written (path : String) : Event := ⟨.info, "artifact written", [("path", path)]⟩

/-- Keeps the machine of a group.  A folder that was made for it stays, also if the machine cannot
be written. -/
def keep (config : Config) (p : Project) (group : String) (m : Machine) (tree : FileTree) :
    FileTree × Option Failure :=
  let dir := config.artifactDir p.dir
  let path := config.artifactPath p.dir group
  match tree.makeFolders dir with
  | (tree, some fault) => (tree, some (unwritable dir fault))
  | (tree, none) =>
    match tree.write path (.text m.artifact) with
    | .error fault => (tree, some (unwritable path fault))
    | .ok tree => (tree, none)

end Artifact

/-! ### Groups one after the other -/

/-- What compiling some groups leaves behind. -/
structure GroupsRun where
  tree : FileTree
  logs : List String := []
  events : List Event := []
  groups : List GroupReport := []
  failure? : Option Failure := none

namespace Request

/-- What becomes of a group that ran: its machine is kept, or only counted. -/
def settle (config : Config) (p : Project) (kept : Bool) (tree : FileTree) (group : String) :
    Except Failure (Option Compilation) → FileTree × Except Failure (List Event × GroupOutcome)
  | .error f => (tree, .error f)
  | .ok none => (tree, .ok ([], .empty))
  | .ok (some c) =>
    let outcome := GroupOutcome.success c.machine.states.length
    if kept then
      match Artifact.keep config p group c.machine tree with
      | (tree, some f) => (tree, .error f)
      | (tree, none) =>
        (tree, .ok ([Artifact.written (config.artifactPath p.dir group)], outcome))
    else (tree, .ok ([], outcome))

/-- Compiles groups in order up to the first that fails. -/
def compileGroups (config : Config) (p : Project) (kept : Bool) (tree : FileTree) :
    List ScriptGroup → GroupsRun
  | [] => { tree }
  | g :: rest =>
    let ran := GroupRun.run config.scriptOptions tree p g
    match settle config p kept tree g.slug ran.result with
    | (tree, .error f) =>
      { tree, logs := ran.logs, events := ran.events, groups := [.failed g.slug f],
        failure? := some f }
    | (tree, .ok (events, outcome)) =>
      let later := compileGroups config p kept tree rest
      { later with
        logs := ran.logs ++ later.logs
        events := ran.events ++ events ++ later.events
        groups := ⟨g.slug, outcome⟩ :: later.groups }

def answerOf (kept : Bool) (r : GroupsRun) : Answer where
  tree := r.tree
  events := r.events
  result :=
    match r.failure? with
    | some failure => .error { failure, logs := r.logs, groups := r.groups }
    | none => .ok (.report (.ofGroups kept r.groups r.logs))

def refused (tree : FileTree) (f : Failure) : Answer := ⟨tree, [], .error { failure := f }⟩

/-- Compiles all groups, or the one that is asked for. -/
def compileAll (config : Config) (p : Project) (filter : Option String) (kept : Bool)
    (tree : FileTree) : Answer :=
  match p.select filter with
  | .error f => refused tree f
  | .ok groups => answerOf kept (compileGroups config p kept tree groups)

/-! ### Showing a group -/

def nothingToShow (group : String) : Failure where
  kind := .script
  code := "PREVIEW_GROUP_EMPTY"
  message := s!"Script group \"{group}\" produced no actions."

/-- What is shown of a group that ran. -/
def showing (group : String) (ran : Told (Option Compilation)) :
    Except CompileFailure CompileResult :=
  let give (f : Failure) : Except CompileFailure CompileResult :=
    .error { failure := f, logs := ran.logs, groups := [.failed group f] }
  match ran.result with
  | .error f => give f
  | .ok none => give (nothingToShow group)
  | .ok (some c) => .ok (.preview { group, machine := c.machine, logs := ran.logs })

/-- The machine of one group, the first unless one is asked for. -/
def previewGroup (config : Config) (p : Project) (group : Option String) (tree : FileTree) :
    Answer :=
  match p.chosen group with
  | .error f => refused tree f
  | .ok g =>
    let ran := GroupRun.run config.scriptOptions tree p g
    { tree, events := ran.events, result := showing g.slug ran }

/-! ### Requests -/

def requested (r : Request) (p : Project) : Event :=
  ⟨.info, "compile requested",
    [("project", p.slug), ("mode", r.mode.label), ("groups", toString p.groups.length)]⟩

def aborted (r : Request) (f : CompileFailure) : Event :=
  ⟨.error, "compile aborted",
    [("project", r.project), ("group", (f.groups.getLast?.map (·.slug)).getD "-"),
      ("code", f.failure.code), ("kind", f.failure.kind.label), ("detail", f.failure.message)]⟩

/-- What a request asks of a project that is loaded. -/
def compileProject (r : Request) (config : Config) (p : Project) (tree : FileTree) : Answer :=
  match r.mode with
  | .preview => previewGroup config p r.group tree
  | .persist => compileAll config p r.group true tree
  | .check => compileAll config p r.group false tree

/-- Carries out a request. -/
def run (r : Request) (config : Config) (tree : FileTree) : Answer :=
  let (loadEvents, loaded) := Project.load config tree r.project
  let a : Answer :=
    match loaded with
    | .error f => refused tree f
    | .ok p =>
      let a := r.compileProject config p tree
      { a with events := r.requested p :: a.events }
  let last :=
    match a.result with
    | .error f => [r.aborted f]
    | .ok _ => []
  { a with events := loadEvents ++ a.events ++ last }

end Request

end Dialogue
