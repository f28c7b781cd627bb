import Dialogue.Failure
import Dialogue.Machine

/-!
# Reports

What a compile request answers: the outcome of each group with the log, or the machine of one
group, or a failure with what was finished before it.
-/

namespace Dialogue

inductive GroupStatus where
  | success
  | empty
  | failed
  deriving DecidableEq, Repr

namespace GroupStatus

def names : List (String × GroupStatus) :=
  [("success", success), ("empty", empty), ("failed", failed)]

def text : GroupStatus → String
  | success => "success"
  | empty => "empty"
  | failed => "failed"

end GroupStatus

/-- What became of a script group. -/
inductive GroupOutcome where
  | success (states : Nat)
  | empty
  | failed (message : String)
  deriving DecidableEq, Repr

namespace GroupOutcome

def status : GroupOutcome → GroupStatus
  | success _ => .success
  | empty => .empty
  | failed _ => .failed

def states? : GroupOutcome → Option Nat
  | success n => some n
  | _ => none

def message? : GroupOutcome → Option String
  | failed message => some message
  | _ => none

def encode : GroupOutcome → Json
  | success n => .object [("status", .string "success"), ("states", .int n)]
  | empty => .object [("status", .string "empty")]
  | failed message => .object [("status", .string "failed"), ("error", .string message)]

end GroupOutcome

structure GroupReport where
  slug : String
  outcome : GroupOutcome
  deriving DecidableEq, Repr

namespace GroupReport

/-- The report of a group that failed. -/
def failed (slug : String) (f : Failure) : GroupReport := ⟨slug, .failed f.message⟩

end GroupReport

/-- The outcome of each group, in the order of the manifest. -/
structure Report where
  message : String
  groups : List GroupReport
  logs : List String
  deriving DecidableEq, Repr

namespace Report

/-- The report of groups that were compiled and kept, or only checked. -/
def ofGroups (kept : Bool) (groups : List GroupReport) (logs : List String) : Report :=
  let verb := if kept then "Compiled" else "Checked"
  { message := s!"{verb} {groups.length} script group(s).", groups, logs }

/-- The report of the first group with that slug. -/
def group? (r : Report) (slug : String) : Option GroupReport := r.groups.find? (·.slug == slug)

def encode (r : Report) : Json :=
  .object [("message", .string r.message),
    ("report", .object (r.groups.map fun g => (g.slug, g.outcome.encode))),
    ("logs", .ofTexts r.logs)]

end Report

/-- The machine of one group, shown and not kept. -/
structure Preview where
  group : String
  machine : Machine
  logs : List String

namespace Preview

def stateCount (p : Preview) : Nat := p.machine.states.length

def encode (p : Preview) : Json :=
  .object ([("status", .string "success"), ("group", .string p.group),
      ("state_count", .int p.stateCount), ("data", p.machine.encode)]
    ++ if p.logs.isEmpty then [] else [("logs", .ofTexts p.logs)])

end Preview

/-- A request that was given up, with the log and the groups up to there. -/
structure CompileFailure where
  failure : Failure
  logs : List String := []
  groups : List GroupReport := []
  deriving DecidableEq, Repr

namespace CompileFailure

/-- The answer a caller gets. -/
def response (f : CompileFailure) : Json :=
  .object [("status_code", .int f.failure.kind.statusCode), ("code", .string f.failure.code),
    ("detail", .string f.failure.detail), ("logs", .ofTexts f.logs)]

end CompileFailure

end Dialogue
