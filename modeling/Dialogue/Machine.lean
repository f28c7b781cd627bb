import Dialogue.Action.Codec

/-!
# Machines

A compiled dialogue is a machine: states in order, each with the actions it performs and the
transitions that may follow them.  The artifact of a machine is its pretty JSON text, in which
the states are the fields of one object.
-/

namespace Dialogue

open Json (Cause Decoder)
open Json.Decoder (Payload Record bare)

/-- The state before the first label. -/
def startState : String := "__start__"

inductive Transition where
  | jump (target : String)
  | choice (text target : String)
  | conditional (condition : Condition) (target : String)
  | conditionalFinish (condition : Condition)
  | fallthrough (target : String)
  | finish
  | exhausted
  deriving DecidableEq, Repr

namespace Transition

def target? : Transition → Option String
  | jump target | choice _ target | conditional _ target | fallthrough target => some target
  | conditionalFinish _ | finish | exhausted => none

def encode : Transition → Json
  | jump target => .object [("kind", .string "jump"), ("target", .string target)]
  | choice text target =>
    .object [("kind", .string "choice"), ("text", .string text), ("target", .string target)]
  | conditional condition target =>
    .object [("kind", .string "conditional"), ("condition", condition.encode),
      ("target", .string target)]
  | conditionalFinish condition =>
    .object [("kind", .string "conditional_finish"), ("condition", condition.encode)]
  | fallthrough target => .object [("kind", .string "fallthrough"), ("target", .string target)]
  | finish => .object [("kind", .string "finish")]
  | exhausted => .object [("kind", .string "end")]

/-- The fields of one kind of transition. -/
def variant (name : String) : Record Unit Unit := .empty ("struct variant Transition::" ++ name)

def jumpRecord :=
  ((variant "Jump").and (.required "target" .string)).map fun ((), target) => jump target

def choiceRecord :=
  (((variant "Choice").and
    (.required "text" .string)).and
    (.required "target" .string)).map fun (((), text), target) => choice text target

def conditionalRecord :=
  (((variant "Conditional").and
    (.required "condition" Condition.decoder)).and
    (.required "target" .string)).map
    fun (((), condition), target) => conditional condition target

def conditionalFinishRecord :=
  ((variant "ConditionalFinish").and (.required "condition" Condition.decoder)).map
    fun ((), condition) => conditionalFinish condition

def fallthroughRecord :=
  ((variant "Fallthrough").and (.required "target" .string)).map
    fun ((), target) => fallthrough target

/-- The kinds of transition, with what each is read from. -/
def variants : List (String × (Payload → Except Cause Transition)) :=
  [("jump", jumpRecord.ofPayload), ("choice", choiceRecord.ofPayload),
   ("conditional", conditionalRecord.ofPayload),
   ("conditional_finish", conditionalFinishRecord.ofPayload),
   ("fallthrough", fallthroughRecord.ofPayload), ("finish", bare finish),
   ("end", bare exhausted)]

def decoder : Decoder Transition := .tagged "Transition" variants

end Transition

structure State where
  id : String
  body : List Action
  transitions : List Transition
  deriving Repr, Inhabited

/-- A compiled dialogue.  It starts in the state with the id `initial`. -/
structure Machine where
  initial : String
  states : List State
  deriving Repr, Inhabited

namespace State

def encode (s : State) : Json :=
  .object [("body", .array (Action.encodeAll s.body)),
    ("transitions", .array (s.transitions.map (·.encode)))]

/-- The fields of a state beside its id. -/
def record :=
  (((Record.empty "struct StateFields").and
    (.required "body" (.list Action.decoder))).and
    (.required "transitions" (.list Transition.decoder))).map
    fun (((), body), transitions) => (body, transitions)

end State

namespace Machine

def stateIds (m : Machine) : List String := m.states.map (·.id)

/-- The first state with that id. -/
def state? (m : Machine) (id : String) : Option State := m.states.find? (·.id == id)

def encode (m : Machine) : Json :=
  .object [("initial", .string m.initial),
    ("states", .object (m.states.map fun s => (s.id, s.encode)))]

/-- The text that is kept of a compiled dialogue. -/
def artifact (m : Machine) : String := m.encode.pretty ++ "\n"

def record :=
  (((Record.empty "struct RawFsm").and
    (.required "initial" .string)).and
    (.required "states"
      (.entries "a map of state id to state" State.record.decoder))).map
    fun (((), initial), states) =>
      ({ initial, states := states.map fun (id, body, transitions) => { id, body, transitions } }
        : Machine)

def decoder : Decoder Machine := record.decoder

end Machine

end Dialogue
