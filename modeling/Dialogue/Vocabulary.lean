import Dialogue.Action
import Dialogue.Script.Value

/-!
# The vocabulary of dialogue scripts

The functions a script calls to write a dialogue.  Each is found by its name and the types of
its arguments, and says what is to be done: an action is recorded, a block is recorded under a
condition, a text is answered, or the arguments are refused.
-/

namespace Dialogue

open Script (Value)

/-- Why arguments are refused. -/
inductive Refusal where
  | noFlagValue (type : String)
  | noNumber (type : String)
  | noText (what type : String)
  | comparison (sign : String)
  /-- an array is no pair -/
  | optionSize (index size : Nat)
  /-- a map lacks a name -/
  | optionNames (index : Nat)
  | optionType (index : Nat) (type : String)
  deriving DecidableEq, Repr

def Refusal.message : Refusal → String
  | noFlagValue type => s!"flag values must be bool, number or string, got {type}"
  | noNumber type => s!"expected a number, got {type}"
  | noText what type => s!"{what} must be a string, got {type}"
  | comparison sign => s!"unknown comparison operator \"{sign}\" (expected ==, !=, > or <)"
  | optionSize index size =>
    s!"choice option #{index} must be [text, target], got {size} element(s)"
  | optionNames index => s!"choice option #{index} needs both \"text\" and \"target\""
  | optionType index type => s!"choice option #{index} must be an array or a map, got {type}"

/-! ### Arguments -/

/-- The flag value a script value stands for. -/
def FlagValue.ofValue : Value → Except Refusal FlagValue
  | .bool b => .ok (bool b)
  | .int n => .ok (number (Binary64.ofInt n))
  | .float x => .ok (number x)
  | .string s => .ok (text s)
  | v => .error (.noFlagValue v.fullTypeName)

namespace Vocabulary

def amount (v : Value) : Except Refusal Binary64 := do
  match ← FlagValue.ofValue v with
  | .number x => pure x
  | other => throw (.noNumber other.typeName)

def textOf (what : String) : Value → Except Refusal String
  | .string s => .ok s
  | v => .error (.noText what v.fullTypeName)

/-- A list of texts; a single text stands for a list of its own. -/
def textsOf (what : String) : Value → Except Refusal (List String)
  | .array items => items.mapM (textOf what)
  | v => do pure [← textOf what v]

/-- An option is a text and a target, in this order or by these names. -/
def optionOf (index : Nat) : Value → Except Refusal ChoiceOption
  | .array [text, target] => do
    let target ← textOf "choice target" target
    let text ← textOf "choice text" text
    pure ⟨text, target⟩
  | .array items => .error (.optionSize index items.length)
  | .map fields =>
    match fields.lookup "text", fields.lookup "target" with
    | some text, some target => do
      let text ← textOf "choice text" text
      let target ← textOf "choice target" target
      pure ⟨text, target⟩
    | _, _ => .error (.optionNames index)
  | v => .error (.optionType index v.fullTypeName)

/-- The options of a choice, numbered from `index` on; the first that is none decides. -/
def optionsFrom (index : Nat) : List Value → Except Refusal (List ChoiceOption)
  | [] => .ok []
  | v :: rest => do
    let o ← optionOf index v
    pure (o :: (← optionsFrom (index + 1) rest))

def optionsOf (items : List Value) : Except Refusal (List ChoiceOption) := optionsFrom 0 items

def flagCondition (scope : Scope) (key op : String) (value : Value) : Except Refusal Condition :=
  match Comparison.ofText? op with
  | none => .error (.comparison op)
  | some op => do pure (.flag key op (← FlagValue.ofValue value) scope)

/-! ### Functions -/

/-- What a function of the vocabulary does. -/
inductive Deed where
  | record (action : Action)
  /-- runs a function value, and records what it records under a condition -/
  | guarded (condition : Condition) (body : Value)
  | answer (text : String)
  | refuse (why : Refusal)

def Deed.ofAction (build : α → Action) : Except Refusal α → Deed
  | .ok x => record (build x)
  | .error why => refuse why

def Deed.ofCondition (body : Value) : Except Refusal Condition → Deed
  | .ok condition => guarded condition body
  | .error why => refuse why

/-- The functions that run a block. -/
def block? (name : String) (args : List Value) : Option Deed :=
  match name, args with
  | "when", [.string key, .string op, v, body] =>
    some (.ofCondition body (flagCondition .own key op v))
  | "when_global", [.string key, .string op, v, body] =>
    some (.ofCondition body (flagCondition .global key op v))
  | "when_day", [body] => some (.guarded (.time .day) body)
  | "when_night", [body] => some (.guarded (.time .night) body)
  | _, _ => none

/-- The functions on texts and values. -/
def plain? (name : String) (args : List Value) : Option Deed :=
  match name, args with
  | "label", [.string n] => some (.record (.label n))
  | "say", [.string t] => some (.record (.say none t none))
  | "say", [.string who, .string t] => some (.record (.say (some who) t none))
  | "speak", [.string who, .string t, .string voice] =>
    some (.record (.say (some who) t (some voice)))
  | "choice", [.array items] => some (.ofAction .choice (optionsOf items))
  | "jump", [.string target] => some (.record (.jump target))
  | "checkpoint", [.string n] => some (.record (.checkpoint n))
  | "finish", [] => some (.record .finish)
  | "set_flag", [.string k, v] => some (.ofAction (.setFlag k · .own) (FlagValue.ofValue v))
  | "set_global", [.string k, v] => some (.ofAction (.setFlag k · .global) (FlagValue.ofValue v))
  | "add_flag", [.string k, v] => some (.ofAction (.modifyFlag k .add · .own) (amount v))
  | "sub_flag", [.string k, v] => some (.ofAction (.modifyFlag k .sub · .own) (amount v))
  | "add_global", [.string k, v] => some (.ofAction (.modifyFlag k .add · .global) (amount v))
  | "sub_global", [.string k, v] => some (.ofAction (.modifyFlag k .sub · .global) (amount v))
  | "show", [.string who, .string sprite] => some (.record (.display who sprite .center))
  | "show_left", [.string who, .string sprite] => some (.record (.display who sprite .left))
  | "show_right", [.string who, .string sprite] => some (.record (.display who sprite .right))
  | "remove", [.string target] => some (.record (.remove target))
  | "play_sound", [.string file] => some (.record (.playSound file))
  | "unlock_dialogue", [v] => some (.ofAction .unlockDialogue (textsOf "dialogue event" v))
  | "idle_chats", [] => some (.record .idleChats)
  | "character", [.string who] => some (.answer who)
  | _, _ => none

/-- What a call of the vocabulary does, if there is a function for these arguments.  A block is
run by a function value only. -/
def find? (name : String) (args : List Value) : Option Deed :=
  match args.getLast? with
  | some last =>
    if last.isCallable then (block? name args).orElse fun _ => plain? name args
    else plain? name args
  | none => plain? name args

end Vocabulary

end Dialogue
