import Dialogue.Arguments
import Dialogue.Request

/-!
# Commands

A command line names a mode and a project, and perhaps a group and settings.  What a command
answers is written line by line: first whether it succeeded, then what it has to say, each line
with a tag in front.
-/

namespace Dialogue

structure Command where
  request : Request
  config : Config
  /-- how much is told of what happens -/
  logLevel : String := "warn"
  deriving Repr

namespace Command

/-! ### Reading a command line -/

/-- The words for the modes. -/
def modes : List (String × Mode) :=
  [("compile", .persist), ("preview", .preview), ("check", .check)]

/-- Options that may stand before and after the word for the mode. -/
def globalOptions : List String := ["projects-dir", "entry-point", "max-operations", "log-level"]

/-- Options of a mode. -/
def targetOptions : List String := ["project", "group"]

/-- The values of some options are bounded in form. -/
def checkOptions (given : Options) : Except UsageFault Unit :=
  match given.lookup "projects-dir", given.lookup "max-operations" with
  | some "", _ => .error (.missingValue "projects-dir")
  | _, some value =>
    if (Arguments.natural? value).isSome then .ok () else .error (.badValue "max-operations" value)
  | _, none => .ok ()

/-- The command of a mode and options; those after the mode count before those in front. -/
def build (mode : Mode) (before after : Options) : Except UsageFault Command := do
  checkOptions before
  checkOptions after
  let value? (name : String) := (after.lookup name).or (before.lookup name)
  match after.lookup "project" with
  | none => throw (.missingOption "project")
  | some project =>
    let base : Config := {}
    return {
      request := { project, mode, group := after.lookup "group" }
      config :=
        { base with
          projectsDir := (value? "projects-dir").getD base.projectsDir
          entryPoint := (value? "entry-point").getD base.entryPoint
          maxOperations := (value? "max-operations").bind Arguments.natural? }
      logLevel := (value? "log-level").getD "warn" }

/-- The command that arguments stand for. -/
def parse (args : List String) : Except UsageFault Command := do
  let (before, rest) ← Arguments.options globalOptions [] args
  match rest with
  | [] => throw .missingCommand
  | word :: rest =>
    match modes.lookup word with
    | none => throw (.unknownCommand word)
    | some mode =>
      let (after, rest) ← Arguments.options (targetOptions ++ globalOptions) [] rest
      match rest with
      | [] | ["--"] => build mode before after
      | arg :: _ => throw (.unexpected arg)

/-! ### Writing the answer -/

def logLines (logs : List String) : List String := logs.map ("LOG:" ++ ·)

def groupLine (g : GroupReport) : String :=
  s!"GROUP:{g.slug}|{g.outcome.status.text}|{g.outcome.states?.getD 0}"

def reportLines (r : Report) : List String :=
  "RESULT:OK" :: logLines r.logs ++ r.groups.map groupLine ++ ["REPORT_JSON:" ++ r.encode.compact]

def previewLines (p : Preview) : List String :=
  "RESULT:OK" :: logLines p.logs ++
    [s!"STATE_COUNT:{p.stateCount}", "PREVIEW_JSON:" ++ p.encode.compact]

def failureLines (f : CompileFailure) : List String :=
  ["RESULT:ERROR", "ERROR_CODE:" ++ f.failure.code,
    s!"ERROR_STATUS:{f.failure.kind.statusCode}",
    "ERROR_MSG_JSON:" ++ (Json.string f.failure.detail).compact] ++ logLines f.logs

def lines : Except CompileFailure CompileResult → List String
  | .ok (.report r) => reportLines r
  | .ok (.preview p) => previewLines p
  | .error f => failureLines f

/-- Lines as text, each with its end. -/
def unlines (lines : List String) : String := String.join (lines.map (· ++ "\n"))

/-- How the process ends. -/
def exitCode : Except CompileFailure CompileResult → Nat
  | .ok _ => 0
  | .error _ => 1

/-- How the process ends if the arguments are no command. -/
def usageExitCode : Nat := 2

/-- Carries out a command. -/
def run (c : Command) (tree : FileTree) : Answer := c.request.run c.config tree

def output (a : Answer) : String := unlines (lines a.result)

/-! ### Telling what happens -/

/-- The words for how much is told, with the rank up to which events are told of. -/
def verbosities : List (String × Nat) :=
  [("off", 0), ("error", Level.error.rank), ("info", Level.info.rank),
    ("debug", Level.debug.rank), ("trace", Level.debug.rank)]

/-- The rank up to which a command tells of events; a word that is none means warnings. -/
def verbosity (c : Command) : Nat :=
  let word := String.ofList (Text.trim (c.logLevel.toList.map Char.toLower))
  (verbosities.lookup word).getD Level.warn.rank

/-- The lines for the events a command tells of. -/
def eventLines (c : Command) (events : List Event) : List String :=
  (events.filter fun e => e.level.rank ≤ c.verbosity).map Event.line

end Command

end Dialogue
