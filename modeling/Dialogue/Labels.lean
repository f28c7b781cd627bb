import Dialogue.Action
import Dialogue.Failure

/-!
# Labels and references

What a list of actions must satisfy to be compiled: the labels are well-formed and declared
once, labels and guarded blocks stand outside guarded blocks, choices offer something, and every
reference has its label.  Labels are checked first; of several faults the first one is reported.
-/

namespace Dialogue

/-- Names that begin so are kept for the compiler. -/
def reservedPrefix : String := "__"

/-- A letter or digit of ASCII, or the underscore. -/
def isWordChar (c : Char) : Bool := c.isAlphanum || c == '_'

/-- One or more letters, digits and underscores. -/
def isLabelName (s : String) : Bool := !s.isEmpty && s.toList.all isWordChar

/-- Why a list of actions was not compiled.  An action is told by its place in the list, an
action in a guarded block by the place of the block. -/
inductive CompileFault where
  | noActions
  /-- so many actions gave no states -/
  | noStates (count : Nat)
  | malformedLabel (name : String) (index : Nat)
  | reservedLabel (name : String) (index : Nat)
  | duplicateLabel (name : String) (index : Nat)
  | nestedLabel (name : String) (index : Nat)
  | emptyChoice (index : Nat)
  | nestedConditional (index : Nat)
  | unknownLabel (name kind : String) (index : Nat)
  deriving DecidableEq, Repr

namespace CompileFault

def code : CompileFault → String
  | noActions => "COMPILER_EMPTY_INPUT"
  | noStates _ => "COMPILER_NO_STATES"
  | malformedLabel _ _ | reservedLabel _ _ => "COMPILER_LABEL_INVALID"
  | duplicateLabel _ _ => "COMPILER_DUPLICATE_LABEL"
  | nestedLabel _ _ => "COMPILER_NESTED_LABEL"
  | emptyChoice _ => "COMPILER_CHOICE_EMPTY"
  | nestedConditional _ => "COMPILER_NESTED_CONDITIONAL"
  | unknownLabel _ _ _ => "COMPILER_LABEL_NOT_FOUND"

def message : CompileFault → String
  | noActions => "Cannot compile an empty action list."
  | noStates count => s!"{count} action(s) produced no states."
  | malformedLabel name index =>
    s!"Label \"{name}\" (action #{index}) may only contain letters, digits and '_'."
  | reservedLabel name index =>
    s!"Label \"{name}\" (action #{index}) uses the reserved prefix \"{reservedPrefix}\"."
  | duplicateLabel name index =>
    s!"Duplicate label \"{name}\": action #{index} redefines a label declared earlier."
  | nestedLabel name index =>
    s!"Label \"{name}\" cannot be declared inside a conditional (action #{index})."
  | emptyChoice index => s!"Choice at action #{index} has no options."
  | nestedConditional index =>
    s!"Conditional at action #{index} is nested inside another conditional."
  | unknownLabel name kind index =>
    s!"Label \"{name}\" not found: {kind} at action #{index} has no matching label."

/-- That there is nothing to compile, or nothing to show for it, is not the author's fault;
everything else is. -/
def kind : CompileFault → FailureKind
  | noActions | noStates _ => .internal
  | _ => .script

def failure (f : CompileFault) : Failure where
  kind := f.kind
  code := f.code
  message := f.message

end CompileFault

/-- The names of the labels of a list, guarded blocks not searched. -/
def labelNames (actions : List Action) : List String := actions.filterMap Action.label?

/-- Checks the labels from the `index`-th action on; `seen` are the labels before it. -/
def checkLabels (seen : List String) (index : Nat) : List Action → Except CompileFault Unit
  | [] => .ok ()
  | a :: rest =>
    match a.label? with
    | none => checkLabels seen (index + 1) rest
    | some name =>
      if !isLabelName name then .error (.malformedLabel name index)
      else if name.startsWith reservedPrefix then .error (.reservedLabel name index)
      else if name ∈ seen then .error (.duplicateLabel name index)
      else checkLabels (name :: seen) (index + 1) rest

/-- Checks that the labels an action of kind `kind` refers to are declared. -/
def checkTargets (labels : List String) (kind : String) (index : Nat) :
    List String → Except CompileFault Unit
  | [] => .ok ()
  | target :: rest =>
    if target ∈ labels then checkTargets labels kind index rest
    else .error (.unknownLabel target kind index)

/-- Checks an action that stands in a guarded block. -/
def checkInner (labels : List String) (index : Nat) : Action → Except CompileFault Unit
  | .label name => .error (.nestedLabel name index)
  | .conditional _ _ => .error (.nestedConditional index)
  | .choice [] => .error (.emptyChoice index)
  | a => checkTargets labels a.kind index a.targets

/-- Checks the actions of a guarded block. -/
def checkBlock (labels : List String) (index : Nat) : List Action → Except CompileFault Unit
  | [] => .ok ()
  | a :: rest => do
    checkInner labels index a
    checkBlock labels index rest

/-- Checks an action of the list itself. -/
def checkAction (labels : List String) (index : Nat) : Action → Except CompileFault Unit
  | .conditional _ actions => checkBlock labels index actions
  | .choice [] => .error (.emptyChoice index)
  | a => checkTargets labels a.kind index a.targets

/-- Checks the actions from the `index`-th on. -/
def checkActions (labels : List String) (index : Nat) : List Action → Except CompileFault Unit
  | [] => .ok ()
  | a :: rest => do
    checkAction labels index a
    checkActions labels (index + 1) rest

/-- Checks a whole list. -/
def check (actions : List Action) : Except CompileFault Unit :=
  if actions.isEmpty then .error .noActions
  else do
    checkLabels [] 0 actions
    checkActions (labelNames actions) 0 actions

end Dialogue
