import Dialogue.Action

/-!
# Actions as JSON

An action is an object whose field `kind` tells the sort of action, followed by the action's
own fields.  A field that has a default is written all the same; only a missing voice is left
out.
-/

namespace Dialogue

open Json (Cause Decoder)
open Json.Decoder (Payload Record bare)

namespace ChoiceOption

def encode (o : ChoiceOption) : Json :=
  .object [("text", .string o.text), ("target", .string o.target)]

def record :=
  (((Record.empty "struct ChoiceOption").and
    (.required "text" .string)).and
    (.required "target" .string)).map
    fun (((), text), target) => ({ text, target } : ChoiceOption)

def decoder : Decoder ChoiceOption := record.decoder

end ChoiceOption

namespace Action

/-! ### Writing -/

mutual

def encode : Action → Json
  | label name => .object [("kind", .string "label"), ("name", .string name)]
  | say speaker text voice =>
    .object ([("kind", .string "say"), ("speaker", .ofText? speaker), ("text", .string text)]
      ++ voice.toList.map fun v => ("voice", .string v))
  | choice options =>
    .object [("kind", .string "choice"), ("options", .array (options.map (·.encode)))]
  | setFlag key value scope =>
    .object [("kind", .string "set_flag"), ("key", .string key), ("value", value.encode),
      ("scope", .string scope.text)]
  | modifyFlag key op amount scope =>
    .object [("kind", .string "modify_flag"), ("key", .string key), ("op", .string op.text),
      ("amount", .float amount), ("scope", .string scope.text)]
  | display character sprite position =>
    .object [("kind", .string "show"), ("character", .string character),
      ("sprite", .string sprite), ("position", .string position.text)]
  | remove target => .object [("kind", .string "remove"), ("target", .string target)]
  | playSound file => .object [("kind", .string "play_sound"), ("file", .string file)]
  | checkpoint name => .object [("kind", .string "checkpoint"), ("label", .string name)]
  | idleChats => .object [("kind", .string "idle_chats")]
  | unlockDialogue events =>
    .object [("kind", .string "unlock_dialogue"), ("events", .ofTexts events)]
  | conditional condition actions =>
    .object [("kind", .string "conditional"), ("condition", condition.encode),
      ("actions", .array (encodeAll actions))]
  | jump target => .object [("kind", .string "jump"), ("target", .string target)]
  | finish => .object [("kind", .string "finish")]

def encodeAll : List Action → List Json
  | [] => []
  | a :: rest => a.encode :: encodeAll rest

end

/-! ### Reading -/

/-- The fields of one kind of action. -/
def variant (name : String) : Record Unit Unit := .empty ("struct variant DialogueAction::" ++ name)

def labelRecord :=
  ((variant "Label").and (.required "name" .string)).map fun ((), name) => label name

def sayRecord :=
  ((((variant "Say").and
    (.optional "speaker" .string)).and
    (.required "text" .string)).and
    (.defaulted "voice" (.optional .string) none)).map
    fun ((((), speaker), text), voice) => say speaker text voice

def choiceRecord :=
  ((variant "Choice").and (.required "options" (.list ChoiceOption.decoder))).map
    fun ((), options) => choice options

def setFlagRecord :=
  ((((variant "SetFlag").and
    (.required "key" .string)).and
    (.required "value" FlagValue.decoder)).and
    (.defaulted "scope" Scope.decoder .own)).map
    fun ((((), key), value), scope) => setFlag key value scope

def modifyFlagRecord :=
  (((((variant "ModifyFlag").and
    (.required "key" .string)).and
    (.required "op" Change.decoder)).and
    (.required "amount" (.viaValue Decoder.numberOf))).and
    (.defaulted "scope" Scope.decoder .own)).map
    fun (((((), key), op), amount), scope) => modifyFlag key op amount scope

def displayRecord :=
  ((((variant "Show").and
    (.required "character" .string)).and
    (.required "sprite" .string)).and
    (.defaulted "position" (.name StagePosition.names) .center)).map
    fun ((((), character), sprite), position) => display character sprite position

def removeRecord :=
  ((variant "Remove").and (.required "target" .string)).map fun ((), target) => remove target

def playSoundRecord :=
  ((variant "PlaySound").and (.required "file" .string)).map fun ((), file) => playSound file

def checkpointRecord :=
  ((variant "Checkpoint").and (.required "label" .string)).map fun ((), name) => checkpoint name

def unlockDialogueRecord :=
  ((variant "UnlockDialogue").and (.required "events" (.list .string))).map
    fun ((), events) => unlockDialogue events

def conditionalRecord (inner : Decoder Action) :=
  (((variant "Conditional").and
    (.required "condition" Condition.decoder)).and
    (.required "actions" (.list inner))).map
    fun (((), condition), actions) => conditional condition actions

def jumpRecord :=
  ((variant "Jump").and (.required "target" .string)).map fun ((), target) => jump target

/-- The kinds of action, with what each is read from. -/
def variants (inner : Decoder Action) : List (String × (Payload → Except Cause Action)) :=
  [("label", labelRecord.ofPayload), ("say", sayRecord.ofPayload),
   ("choice", choiceRecord.ofPayload), ("set_flag", setFlagRecord.ofPayload),
   ("modify_flag", modifyFlagRecord.ofPayload), ("show", displayRecord.ofPayload),
   ("remove", removeRecord.ofPayload), ("play_sound", playSoundRecord.ofPayload),
   ("checkpoint", checkpointRecord.ofPayload), ("idle_chats", bare idleChats),
   ("unlock_dialogue", unlockDialogueRecord.ofPayload),
   ("conditional", (conditionalRecord inner).ofPayload), ("jump", jumpRecord.ofPayload),
   ("finish", bare finish)]

/-- Actions of guarded blocks, with at most `depth` guarded blocks inside each other. -/
def innerDecoder : Nat → Decoder Action
  | 0 => ⟨fun _ => Json.Reader.failNext .tooDeep, fun _ => .error .tooDeep⟩
  | depth + 1 => .collected "DialogueAction" (variants (innerDecoder depth))

/-- Every text's nesting is bounded, and a guarded block adds to it. -/
def decoder : Decoder Action :=
  .tagged "DialogueAction" (variants (innerDecoder Json.Reader.deepest))

end Action

end Dialogue
