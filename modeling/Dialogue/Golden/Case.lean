import Dialogue.FileTree
import Dialogue.Report
import Dialogue.Request

/-!
# Golden cases

A golden case says how a request for a project is expected to come out: the groups and the
error, and some lines of the log.
-/

namespace Dialogue

open Json (Decoder)
open Json.Decoder (Record)

/-- What is told of a group: how it came out, and the number of its states. -/
structure ObservedGroup where
  slug : String
  status : GroupStatus
  states : Option Nat := none
  deriving DecidableEq, Repr

namespace ObservedGroup

def ofReport (g : GroupReport) : ObservedGroup := ⟨g.slug, g.outcome.status, g.outcome.states?⟩

def ofPreview (p : Preview) : ObservedGroup := ⟨p.group, .success, some p.stateCount⟩

def encode (g : ObservedGroup) : Json :=
  .object ([("slug", .string g.slug), ("status", .string g.status.text)]
    ++ g.states.toList.map fun (n : Nat) => ("states", .int n))

def record :=
  ((((Record.empty "struct ExpectedGroup").and
    (.required "slug" .string)).and
    (.required "status" (.name GroupStatus.names))).and
    (.defaulted "states" (.optional (.natural "usize")) none)).map
    fun ((((), slug), status), states) => ({ slug, status, states } : ObservedGroup)

def decoder : Decoder ObservedGroup := record.decoder

end ObservedGroup

/-- What is told of an error. -/
structure ObservedError where
  code : String
  kind : FailureKind
  deriving DecidableEq, Repr

namespace ObservedError

def ofFailure (f : Failure) : ObservedError := ⟨f.code, f.kind⟩

def encode (e : ObservedError) : Json :=
  .object [("code", .string e.code), ("kind", .string e.kind.text)]

def record :=
  (((Record.empty "struct ExpectedError").and
    (.required "code" .string)).and
    (.required "kind" (.name FailureKind.names))).map
    fun (((), code), kind) => ({ code, kind } : ObservedError)

def decoder : Decoder ObservedError := record.decoder

end ObservedError

structure GoldenCase where
  schemaVersion : String
  mode : Mode := .persist
  group : Option String := none
  expectedGroups : List ObservedGroup := []
  expectedError : Option ObservedError := none
  /-- lines that are somewhere in the log -/
  expectedLogs : List String := []
  deriving DecidableEq, Repr

namespace GoldenCase

/-- The version of the form that is read. -/
def schema : String := "mt-tool-case.v1"

def encode (c : GoldenCase) : Json :=
  .object [("schemaVersion", .string c.schemaVersion), ("mode", .string c.mode.text),
    ("group", .ofText? c.group), ("expectedGroups", .array (c.expectedGroups.map (·.encode))),
    ("expectedError", (c.expectedError.map (·.encode)).getD .null),
    ("expectedLogs", .ofTexts c.expectedLogs)]

def record :=
  (((((((Record.empty "struct TestCase").and
    (.required "schemaVersion" .string)).and
    (.defaulted "mode" (.name Mode.names) .persist)).and
    (.defaulted "group" (.optional .string) none)).and
    (.defaulted "expectedGroups" (.list ObservedGroup.decoder) [])).and
    (.defaulted "expectedError" (.optional ObservedError.decoder) none)).and
    (.defaulted "expectedLogs" (.list .string) [])).map
    fun (((((((), schemaVersion), mode), group), expectedGroups), expectedError), expectedLogs) =>
      ({ schemaVersion, mode, group, expectedGroups, expectedError, expectedLogs } : GoldenCase)

def decoder : Decoder GoldenCase := record.decoder

end GoldenCase

end Dialogue
