/-!
# Events

What happens is told as it happens: each event has a level, a message and some named texts.
-/

namespace Dialogue

inductive Level where
  | error
  | warn
  | info
  | debug
  deriving DecidableEq, Repr

def Level.text : Level → String
  | error => "ERROR"
  | warn => "WARN"
  | info => "INFO"
  | debug => "DEBUG"

/-- How many levels are as grave or graver. -/
def Level.rank : Level → Nat
  | error => 1
  | warn => 2
  | info => 3
  | debug => 4

structure Event where
  level : Level
  message : String
  fields : List (String × String) := []
  deriving DecidableEq, Repr

/-- An event on one line. -/
def Event.line (e : Event) : String :=
  " ".intercalate
    (e.level.text :: e.message :: e.fields.map fun (name, value) => name ++ "=" ++ value)

end Dialogue
