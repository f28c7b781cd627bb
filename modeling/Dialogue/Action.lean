import Dialogue.Condition

/-!
# Actions

A dialogue is a list of actions: lines that are said, choices, changes of flags and of the
stage, labels, and moves to labels.  An action that is guarded by a condition holds a list of
actions of its own.
-/

namespace Dialogue

/-- Where a character stands. -/
inductive StagePosition where
  | center
  | left
  | right
  deriving DecidableEq, Repr, Inhabited

namespace StagePosition

def names : List (String × StagePosition) := [("center", center), ("left", left), ("right", right)]

def text : StagePosition → String
  | center => "center"
  | left => "left"
  | right => "right"

end StagePosition

/-- An answer the player may pick, and the label it leads to. -/
structure ChoiceOption where
  text : String
  target : String
  deriving DecidableEq, Repr

inductive Action where
  | label (name : String)
  | say (speaker : Option String) (text : String) (voice : Option String)
  | choice (options : List ChoiceOption)
  | setFlag (key : String) (value : FlagValue) (scope : Scope)
  | modifyFlag (key : String) (op : Change) (amount : Binary64) (scope : Scope)
  | display (character sprite : String) (position : StagePosition)
  | remove (target : String)
  | playSound (file : String)
  | checkpoint (label : String)
  | idleChats
  | unlockDialogue (events : List String)
  | conditional (condition : Condition) (actions : List Action)
  | jump (target : String)
  | finish
  deriving Repr, Inhabited

namespace Action

/-- The name of the kind of action. -/
def kind : Action → String
  | label _ => "label"
  | say _ _ _ => "say"
  | choice _ => "choice"
  | setFlag _ _ _ => "set_flag"
  | modifyFlag _ _ _ _ => "modify_flag"
  | display _ _ _ => "show"
  | remove _ => "remove"
  | playSound _ => "play_sound"
  | checkpoint _ => "checkpoint"
  | idleChats => "idle_chats"
  | unlockDialogue _ => "unlock_dialogue"
  | conditional _ _ => "conditional"
  | jump _ => "jump"
  | finish => "finish"

def label? : Action → Option String
  | label name => some name
  | _ => none

/-- Nothing behind this action is reached by running on. -/
def isTerminator : Action → Bool
  | choice _ | jump _ | finish => true
  | _ => false

mutual

/-- The labels an action refers to, in order, those inside a guarded block included. -/
def targets : Action → List String
  | jump name | checkpoint name => [name]
  | choice options => options.map (·.target)
  | conditional _ actions => targetsOf actions
  | _ => []

def targetsOf : List Action → List String
  | [] => []
  | a :: rest => a.targets ++ targetsOf rest

end

end Action

end Dialogue
