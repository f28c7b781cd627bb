import Dialogue.Json.Decoder

/-!
# Failures

A failure has a code, a message, and a kind that says who has to act on it: the author of the
scripts, the caller who named something that does not exist, or whoever keeps the compiler.
What a caller is told of an internal failure is its code alone.
-/

namespace Dialogue

inductive FailureKind where
  | script
  | notFound
  | internal
  deriving DecidableEq, Repr

namespace FailureKind

def names : List (String × FailureKind) :=
  [("script", script), ("not_found", notFound), ("internal", internal)]

def text : FailureKind → String
  | script => "script"
  | notFound => "not_found"
  | internal => "internal"

/-- The name of the kind in events. -/
def label : FailureKind → String
  | script => "Script"
  | notFound => "NotFound"
  | internal => "Internal"

def statusCode : FailureKind → Nat
  | script => 400
  | notFound => 404
  | internal => 500

end FailureKind

structure Failure where
  kind : FailureKind
  code : String
  message : String
  deriving DecidableEq, Repr

namespace Failure

/-- The failure with its code in front. -/
def text (f : Failure) : String := s!"{f.code}: {f.message}"

/-- What a caller is told. -/
def detail (f : Failure) : String :=
  match f.kind with
  | .script => "Script Validation Error: " ++ f.message
  | .notFound => f.message
  | .internal => s!"Internal compiler error ({f.code})"

end Failure

end Dialogue
