import Dialogue.Machine
import Dialogue.Labels

/-!
# From actions to a machine

Every label begins a state, which runs to the next label; actions before the first label belong
to a start state of their own.  A state keeps its actions up to and including the first that
terminates it; what stands behind that is never reached and is dropped with a warning.
-/

namespace Dialogue

/-- The actions from one label to the next. -/
structure Segment where
  id : String
  actions : List Action

namespace Segment

/-- The actions before the first label, and the segment of each label. -/
def split : List Action → List Action × List Segment
  | [] => ([], [])
  | a :: rest =>
    let (lead, segments) := split rest
    match a.label? with
    | some name => ([], ⟨name, lead⟩ :: segments)
    | none => (a :: lead, segments)

/-- The segments of a list of actions; there is a start segment only where it holds something. -/
def ofActions (actions : List Action) : List Segment :=
  let (lead, segments) := split actions
  if lead.isEmpty then segments else ⟨startState, lead⟩ :: segments

/-- The actions that can be reached, and how many stand behind them. -/
def cut : List Action → List Action × Nat
  | [] => ([], 0)
  | a :: rest =>
    if a.isTerminator then ([a], rest.length)
    else
      let (live, dead) := cut rest
      (a :: live, dead)

/-- The transitions out of the middle of a guarded block. -/
def guardedTransitions (condition : Condition) (actions : List Action) : List Transition :=
  actions.flatMap fun
    | .finish => [.conditionalFinish condition]
    | .checkpoint _ => []
    | a => a.targets.map (.conditional condition)

/-- The transitions out of the guarded blocks of a body. -/
def guarded (body : List Action) : List Transition :=
  body.flatMap fun
    | .conditional condition actions => guardedTransitions condition actions
    | _ => []

/-- The transitions at the end of a body, before the state `next`. -/
def closing (body : List Action) (next : Option String) : List Transition :=
  match body.getLast? with
  | some (.jump target) => [.jump target]
  | some (.choice options) => options.map fun o => .choice o.text o.target
  | some .finish => [.finish]
  | _ => [match next with | some id => .fallthrough id | none => .exhausted]

/-- The state of a segment that stands before the state `next`. -/
def state (s : Segment) (next : Option String) : State :=
  let body := (cut s.actions).1
  { id := s.id, body, transitions := guarded body ++ closing body next }

/-- A warning for the actions that are never reached. -/
def warning? (s : Segment) : Option String :=
  let (body, dead) := cut s.actions
  if dead = 0 then none
  else
    let kind := (body.getLast?.map Action.kind).getD ""
    some s!"state \"{s.id}\": {dead} unreachable action(s) after {kind} ignored"

/-- The states of segments in order. -/
def states : List Segment → List State
  | [] => []
  | s :: rest => s.state (rest.head?.map (·.id)) :: states rest

end Segment

/-- A machine, and what was left out of it. -/
structure Compilation where
  machine : Machine
  warnings : List String

/-- The compilation of a list that has been checked. -/
def compileChecked (actions : List Action) : Compilation :=
  let segments := Segment.ofActions actions
  let states := Segment.states segments
  { machine := { initial := (states.head?.map (·.id)).getD startState, states }
    warnings := segments.filterMap Segment.warning? }

/-- Compiles a list of actions, or says what is wrong with it. -/
def compile (actions : List Action) : Except CompileFault Compilation := do
  check actions
  let compilation := compileChecked actions
  if compilation.machine.states.isEmpty then throw (.noStates actions.length)
  return compilation

end Dialogue
