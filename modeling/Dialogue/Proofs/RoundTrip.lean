import Dialogue.Machine
import Dialogue.Proofs.Json.Decoding

/-!
# Artifacts are read back

Every part of a machine is decoded from what it is encoded as: flag values, conditions, actions
with their guarded blocks, transitions and states.  So the artifact of a machine is decoded as the
machine (`Machine.decode_artifact`), if its nesting is within the reader's bound, its numbers are
finite, and each of them is read back from its text.
-/

namespace Dialogue

open Json (ReadsBack)
open Json.Decoder

/-! ### The numbers of a machine -/

def FlagValue.numbers : FlagValue → List Binary64
  | .number x => [x]
  | .bool _ | .text _ => []

def Condition.numbers : Condition → List Binary64
  | .flag _ _ value _ => value.numbers
  | .time _ => []

mutual

def Action.numbers : Action → List Binary64
  | .setFlag _ value _ => value.numbers
  | .modifyFlag _ _ amount _ => [amount]
  | .conditional condition actions => condition.numbers ++ numbersOfActions actions
  | _ => []

def numbersOfActions : List Action → List Binary64
  | [] => []
  | a :: rest => a.numbers ++ numbersOfActions rest

end

def Transition.numbers : Transition → List Binary64
  | .conditional condition _ | .conditionalFinish condition => condition.numbers
  | _ => []

/-- The amounts and the flag values that the machine holds, those of its conditions included. -/
def Machine.numbers (m : Machine) : List Binary64 :=
  m.states.flatMap fun s => numbersOfActions s.body ++ s.transitions.flatMap (·.numbers)

/-! ### Names, flag values and conditions -/

theorem Scope.reads (s : Scope) : decoder.Reads (.string s.text) s :=
  reads_name (by cases s <;> rfl)

theorem Change.reads (c : Change) : decoder.Reads (.string c.text) c :=
  reads_name (by cases c <;> rfl)

theorem Comparison.reads (c : Comparison) : decoder.Reads (.string c.text) c :=
  reads_name (by cases c <;> rfl)

theorem TimeOfDay.reads (t : TimeOfDay) : (name names).Reads (.string t.text) t :=
  reads_name (by cases t <;> rfl)

theorem StagePosition.reads (p : StagePosition) : (name names).Reads (.string p.text) p :=
  reads_name (by cases p <;> rfl)

theorem FlagValue.reads {v : FlagValue} (hv : v.encode.Legible) : decoder.Reads v.encode v :=
  reads_viaValue hv (by cases v <;> rfl)

namespace Condition

theorem flagRecord_gives {key : String} {op : Comparison} {value : FlagValue} {scope : Scope}
    (hv : value.encode.Legible) :
    flagRecord.Gives [("key", .string key), ("op", .string op.text), ("value", value.encode),
      ("scope", .string scope.text)] (flag key op value scope) :=
  (((((Record.gives_empty _).and (reads_string _ key) (by decide)).and op.reads (by decide)).and
    (FlagValue.reads hv) (by decide)).and scope.reads (by decide)).map _

theorem timeRecord_gives (t : TimeOfDay) :
    timeRecord.Gives [("time_of_day", .string t.text)] (time t) :=
  ((Record.gives_empty _).and t.reads (by decide)).map _

/-- A time of day has none of the fields that a comparison needs. -/
theorem reads {c : Condition} (hc : c.encode.Legible) : decoder.Reads c.encode c := by
  refine reads_viaValue hc ?_
  cases c with
  | flag key op value scope =>
      have hv : value.encode.Legible :=
        Json.legible_object.mp hc ("value", value.encode) (by simp)
      have hflag : flagRecord.decoder.fromValue (encode (flag key op value scope))
          = .ok (flag key op value scope) := (flagRecord_gives hv).reads.value
      simp only [List.findSome?_cons, hflag]
      rfl
  | time t =>
      have hflag : (flagRecord.decoder.fromValue (encode (time t))).toOption = none := by
        cases t <;> rfl
      have htime : timeOfJson (encode (time t)) = .ok (time t) := (timeRecord_gives t).fromFields
      simp only [List.findSome?_cons, hflag, htime]
      rfl

end Condition

/-- A record with one text. -/
theorem gives_text (expected field text : String) :
    ((Record.empty expected).and (.required field .string)).Gives [(field, .string text)]
      ((), text) :=
  (Record.gives_empty expected).and (reads_string _ text) nofun

/-- A record with two texts. -/
theorem gives_texts (expected : String) {first second : String} (h : first ≠ second)
    (a b : String) :
    (((Record.empty expected).and (.required first .string)).and
      (.required second .string)).Gives [(first, .string a), (second, .string b)] (((), a), b) :=
  have hnew : second ∉ [first] := fun hmem => h (List.mem_singleton.mp hmem).symm
  (gives_text expected first a).and (reads_string _ b) hnew

theorem ChoiceOption.record_gives (o : ChoiceOption) :
    record.Gives [("text", .string o.text), ("target", .string o.target)] o :=
  (gives_texts _ (by decide) o.text o.target).map _

theorem ChoiceOption.reads (o : ChoiceOption) : decoder.Reads o.encode o := o.record_gives.reads

/-! ### Actions -/

/-- A list of values is read if each of them is. -/
theorem reads_encoded {α : Type} {d : Json.Decoder α} {encode : α → Json} {as : List α}
    (h : ∀ a ∈ as, d.Reads (encode a) a) : (list d).Reads (.array (as.map encode)) as :=
  reads_list (List.forall₂_map_left_iff.mpr (List.forall₂_same.mpr h))

namespace Action

theorem encodeAll_eq_map (actions : List Action) : encodeAll actions = actions.map encode := by
  induction actions with
  | nil => rfl
  | cons a rest ih => rw [encodeAll, ih, List.map_cons]

theorem tells {a : Action} (ha : a.encode.Legible) {inner : Json.Decoder Action}
    (hinner : ∀ condition actions, a = conditional condition actions →
      (list inner).Reads (.array (encodeAll actions)) actions) :
    Tells (variants inner) a.encode a := by
  cases a with
  | label name =>
      have h : labelRecord.Gives [("name", .string name)] (label name) :=
        (gives_text _ _ name).map _
      exact .intro rfl (by simp [tagName]) h.ofPayload
  | say speaker text voice =>
      have hspeaker : (string.optional).Reads (.ofText? speaker) speaker := by
        cases speaker with
        | none => exact reads_optional_none _
        | some s => exact reads_optional_some (isPresent_string _) (reads_string _ s)
      have hsaid : (((variant "Say").and (.optional "speaker" .string)).and
          (.required "text" .string)).Gives
          [("speaker", .ofText? speaker), ("text", .string text)] (((), speaker), text) :=
        ((Record.gives_empty _).and hspeaker (by decide)).and (reads_string _ text) (by decide)
      have h : sayRecord.Gives ([("speaker", .ofText? speaker), ("text", .string text)]
          ++ voice.toList.map fun v => ("voice", .string v)) (say speaker text voice) := by
        cases voice with
        | none => exact (hsaid.and_absent rfl).map _
        | some v => exact (hsaid.and (reads_optional_some (isPresent_string _) (reads_string _ v)) (by decide)).map _
      exact .intro rfl (by simp [tagName]) h.ofPayload
  | choice options =>
      have h : choiceRecord.Gives [("options", .array (options.map (·.encode)))] (choice options) :=
        ((Record.gives_empty _).and (reads_encoded fun o _ => o.reads) (by decide)).map _
      exact .intro rfl (by simp [tagName]) h.ofPayload
  | setFlag key value scope =>
      have hv : value.encode.Legible := Json.legible_object.mp ha ("value", value.encode) (by simp)
      have h : setFlagRecord.Gives [("key", .string key), ("value", value.encode),
          ("scope", .string scope.text)] (setFlag key value scope) :=
        ((((Record.gives_empty _).and (reads_string _ key) (by decide)).and
          (FlagValue.reads hv) (by decide)).and scope.reads (by decide)).map _
      exact .intro rfl (by simp [tagName]) h.ofPayload
  | modifyFlag key op amount scope =>
      have hx : (Json.float amount).Legible :=
        Json.legible_object.mp ha ("amount", .float amount) (by simp)
      have h : modifyFlagRecord.Gives [("key", .string key), ("op", .string op.text),
          ("amount", .float amount), ("scope", .string scope.text)]
          (modifyFlag key op amount scope) :=
        (((((Record.gives_empty _).and (reads_string _ key) (by decide)).and op.reads (by decide)).and
          (reads_viaValue (f := numberOf) hx rfl) (by decide)).and scope.reads (by decide)).map _
      exact .intro rfl (by simp [tagName]) h.ofPayload
  | display character sprite position =>
      have h : displayRecord.Gives [("character", .string character), ("sprite", .string sprite),
          ("position", .string position.text)] (display character sprite position) :=
        ((((Record.gives_empty _).and (reads_string _ character) (by decide)).and
          (reads_string _ sprite) (by decide)).and position.reads (by decide)).map _
      exact .intro rfl (by simp [tagName]) h.ofPayload
  | remove target =>
      have h : removeRecord.Gives [("target", .string target)] (remove target) :=
        (gives_text _ _ target).map _
      exact .intro rfl (by simp [tagName]) h.ofPayload
  | playSound file =>
      have h : playSoundRecord.Gives [("file", .string file)] (playSound file) :=
        (gives_text _ _ file).map _
      exact .intro rfl (by simp [tagName]) h.ofPayload
  | checkpoint name =>
      have h : checkpointRecord.Gives [("label", .string name)] (checkpoint name) :=
        (gives_text _ _ name).map _
      exact .intro rfl (by simp [tagName]) h.ofPayload
  | idleChats => exact .intro rfl nofun rfl
  | unlockDialogue events =>
      have h : unlockDialogueRecord.Gives [("events", .array (events.map .string))]
          (unlockDialogue events) :=
        ((Record.gives_empty _).and (reads_encoded fun e _ => reads_string _ e) (by decide)).map _
      exact .intro rfl (by simp [tagName]) h.ofPayload
  | conditional condition actions =>
      have hc : condition.encode.Legible :=
        Json.legible_object.mp ha ("condition", condition.encode) (by simp)
      have h : (conditionalRecord inner).Gives [("condition", condition.encode),
          ("actions", .array (encodeAll actions))] (conditional condition actions) :=
        (((Record.gives_empty _).and (Condition.reads hc) (by decide)).and (hinner _ _ rfl)
          (show "actions" ∉ ["condition"] by decide)).map _
      exact .intro rfl (by simp [tagName]) h.ofPayload
  | jump target =>
      have h : jumpRecord.Gives [("target", .string target)] (jump target) :=
        (gives_text _ _ target).map _
      exact .intro rfl (by simp [tagName]) h.ofPayload
  | finish => exact .intro rfl nofun rfl

section Block

variable {condition : Condition} {actions : List Action} {a : Action}

/-- A guarded block stands two brackets deep in what its action is encoded as. -/
theorem depth_block (condition : Condition) (h : a ∈ actions) :
    a.encode.depth + 2 ≤ (conditional condition actions).encode.depth := by
  have hblock : (Json.array (encodeAll actions)).depth
      < (conditional condition actions).encode.depth :=
    Json.depth_lt_of_mem_object (f := ("actions", .array (encodeAll actions))) (by simp)
  have ha : a.encode.depth < (Json.array (encodeAll actions)).depth := by
    refine Json.depth_lt_of_mem_array ?_
    rw [encodeAll_eq_map]
    exact List.mem_map_of_mem h
  omega

theorem legible_block (hc : (conditional condition actions).encode.Legible) (h : a ∈ actions) :
    a.encode.Legible := by
  have hblock : (Json.array (encodeAll actions)).Legible :=
    Json.legible_object.mp hc ("actions", .array (encodeAll actions)) (by simp)
  rw [encodeAll_eq_map] at hblock
  exact Json.legible_array.mp hblock _ (List.mem_map_of_mem h)

end Block

/-- The reader's bound on brackets also bounds the blocks inside each other. -/
theorem reads_inner {n : Nat} {a : Action} (ha : a.encode.Legible) (hd : a.encode.depth ≤ n) :
    (innerDecoder n).Reads a.encode a := by
  induction n generalizing a with
  | zero => cases a <;> exact absurd hd (Nat.not_succ_le_zero _)
  | succ n ih =>
      refine reads_collected (tells ha ?_) ha _
      rintro condition actions rfl
      rw [encodeAll_eq_map]
      refine reads_encoded fun a hmem => ih (legible_block ha hmem) ?_
      have := depth_block condition hmem
      omega

theorem reads {a : Action} (ha : a.encode.Legible) (hd : a.encode.depth ≤ Json.Reader.deepest) :
    decoder.Reads a.encode a := by
  refine reads_tagged (tells ha ?_) ha _
  rintro condition actions rfl
  rw [encodeAll_eq_map]
  refine reads_encoded fun a hmem => reads_inner (legible_block ha hmem) ?_
  have := depth_block condition hmem
  omega

end Action

namespace Transition

theorem tells {t : Transition} (ht : t.encode.Legible) : Tells variants t.encode t := by
  cases t with
  | jump target =>
      have h : jumpRecord.Gives [("target", .string target)] (jump target) :=
        (gives_text _ _ target).map _
      exact .intro rfl (by simp [tagName]) h.ofPayload
  | choice text target =>
      have h : choiceRecord.Gives [("text", .string text), ("target", .string target)]
          (choice text target) := (gives_texts _ (by decide) text target).map _
      exact .intro rfl (by simp [tagName]) h.ofPayload
  | conditional condition target =>
      have hc : condition.encode.Legible :=
        Json.legible_object.mp ht ("condition", condition.encode) (by simp)
      have h : conditionalRecord.Gives [("condition", condition.encode),
          ("target", .string target)] (conditional condition target) :=
        (((Record.gives_empty _).and (Condition.reads hc) (by decide)).and
          (reads_string _ target) (by decide)).map _
      exact .intro rfl (by simp [tagName]) h.ofPayload
  | conditionalFinish condition =>
      have hc : condition.encode.Legible :=
        Json.legible_object.mp ht ("condition", condition.encode) (by simp)
      have h : conditionalFinishRecord.Gives [("condition", condition.encode)]
          (conditionalFinish condition) :=
        ((Record.gives_empty _).and (Condition.reads hc) (by decide)).map _
      exact .intro rfl (by simp [tagName]) h.ofPayload
  | fallthrough target =>
      have h : fallthroughRecord.Gives [("target", .string target)] (fallthrough target) :=
        (gives_text _ _ target).map _
      exact .intro rfl (by simp [tagName]) h.ofPayload
  | finish => exact .intro rfl nofun rfl
  | exhausted => exact .intro rfl nofun rfl

theorem reads {t : Transition} (ht : t.encode.Legible) : decoder.Reads t.encode t :=
  reads_tagged (tells ht) ht _

end Transition

/-! ### States and machines -/

theorem State.reads {s : State} (hs : s.encode.Legible)
    (hd : s.encode.depth ≤ Json.Reader.deepest) :
    record.decoder.Reads s.encode (s.body, s.transitions) := by
  have hbody := Json.legible_object.mp hs ("body", .array (Action.encodeAll s.body)) (by simp)
  have hmoves :=
    Json.legible_object.mp hs ("transitions", .array (s.transitions.map (·.encode))) (by simp)
  have hdepth : (Json.array (Action.encodeAll s.body)).depth < s.encode.depth :=
    Json.depth_lt_of_mem_object (f := ("body", .array (Action.encodeAll s.body))) (by simp)
  have hactions : (list Action.decoder).Reads (.array (Action.encodeAll s.body)) s.body := by
    rw [Action.encodeAll_eq_map] at hbody hdepth ⊢
    refine reads_encoded fun a ha => Action.reads ?_ ?_
    · exact Json.legible_array.mp hbody _ (List.mem_map_of_mem ha)
    · have := Json.depth_lt_of_mem_array (List.mem_map_of_mem (f := Action.encode) ha)
      omega
  have htransitions : (list Transition.decoder).Reads (.array (s.transitions.map (·.encode)))
      s.transitions :=
    reads_encoded fun t ht =>
      Transition.reads (Json.legible_array.mp hmoves _ (List.mem_map_of_mem ht))
  have h : record.Gives [("body", .array (Action.encodeAll s.body)),
      ("transitions", .array (s.transitions.map (·.encode)))] (s.body, s.transitions) :=
    (((Record.gives_empty _).and hactions (by decide)).and htransitions (by decide)).map _
  exact h.reads

theorem Machine.reads {m : Machine} (hm : m.encode.Legible)
    (hd : m.encode.depth ≤ Json.Reader.deepest) : decoder.Reads m.encode m := by
  let fields : List (String × Json) := m.states.map fun s => (s.id, s.encode)
  have hfield : ("states", Json.object fields) ∈
      [("initial", .string m.initial), ("states", .object fields)] := by simp
  have hstates : (Json.object fields).Legible := Json.legible_object.mp hm _ hfield
  have hdepth : (Json.object fields).depth < m.encode.depth := Json.depth_lt_of_mem_object hfield
  have hentries : (entries "a map of state id to state" State.record.decoder).Reads
      (.object fields) (m.states.map fun s => (s.id, s.body, s.transitions)) := by
    refine reads_entries _ ?_
    rw [List.forall₂_map_left_iff, List.forall₂_map_right_iff, List.forall₂_same]
    intro s hs
    have hmem : (s.id, s.encode) ∈ fields := List.mem_map_of_mem (f := fun s => (s.id, s.encode)) hs
    have hlt : s.encode.depth < (Json.object fields).depth := Json.depth_lt_of_mem_object hmem
    exact ⟨rfl, State.reads (Json.legible_object.mp hstates _ hmem) (by omega)⟩
  have hsame : (m.states.map fun s => (s.id, s.body, s.transitions)).map
      (fun (id, body, transitions) => ({ id, body, transitions } : State)) = m.states := by
    rw [List.map_map]
    exact List.map_id _
  have h : record.Gives [("initial", .string m.initial), ("states", .object fields)]
      { initial := m.initial, states := _ } :=
    (((Record.gives_empty _).and (reads_string _ m.initial) (by decide)).and hentries
      (by decide)).map _
  rw [hsame] at h
  exact h.reads

/-! ### Legible parts -/

theorem FlagValue.legible_encode {v : FlagValue}
    (h : ∀ x ∈ v.numbers, ReadsBack (.float x)) : v.encode.Legible := by
  cases v with
  | number x => exact h x (List.mem_singleton_self x)
  | bool b => trivial
  | text s => trivial

theorem Condition.legible_encode {c : Condition}
    (h : ∀ x ∈ c.numbers, ReadsBack (.float x)) : c.encode.Legible := by
  cases c with
  | flag key op value scope =>
      have hv := FlagValue.legible_encode (v := value) h
      simp [encode, hv]
  | time t => simp [encode]

mutual

theorem Action.legible_encode : ∀ {a : Action},
    (∀ x ∈ a.numbers, ReadsBack (.float x)) → a.encode.Legible
  | .setFlag key value scope, h => by
      have hv := FlagValue.legible_encode (v := value) h
      simp [encode, hv]
  | .modifyFlag key op amount scope, h => by
      have hx : ReadsBack (.float amount) := h amount (List.mem_singleton_self amount)
      simp [encode, hx]
  | .conditional condition actions, h => by
      obtain ⟨hc, hactions⟩ := List.forall_mem_append.mp h
      have hcondition := Condition.legible_encode hc
      simpa [encode, hcondition] using legible_encodeAll hactions
  | .say speaker text voice, _ => by
      cases speaker <;> cases voice <;>
        simp [encode, Json.ofText?]
  | .choice options, _ => by
      simp [encode, ChoiceOption.encode]
  | .unlockDialogue events, _ => by
      simp [encode, Json.ofTexts]
  | .label _, _ | .display _ _ _, _ | .remove _, _ | .playSound _, _ | .checkpoint _, _
  | .idleChats, _ | .jump _, _ | .finish, _ => by
      simp [encode]

theorem Action.legible_encodeAll : ∀ {actions : List Action},
    (∀ x ∈ numbersOfActions actions, ReadsBack (.float x)) →
      ∀ v ∈ encodeAll actions, v.Legible
  | [], _ => nofun
  | a :: rest, h => by
      obtain ⟨ha, hrest⟩ := List.forall_mem_append.mp h
      exact List.forall_mem_cons.mpr ⟨legible_encode ha, legible_encodeAll hrest⟩

end

theorem Transition.legible_encode {t : Transition}
    (h : ∀ x ∈ t.numbers, ReadsBack (.float x)) : t.encode.Legible := by
  cases t with
  | conditional condition target =>
      have hc := Condition.legible_encode (c := condition) h
      simp [encode, hc]
  | conditionalFinish condition =>
      have hc := Condition.legible_encode (c := condition) h
      simp [encode, hc]
  | _ => simp [encode]

theorem Machine.legible_encode {m : Machine}
    (h : ∀ x ∈ m.numbers, ReadsBack (.float x)) : m.encode.Legible := by
  have hstates : ∀ s ∈ m.states, s.encode.Legible := by
    intro s hs
    have hnumbers := List.forall_mem_append.mp fun x hx =>
      h x (List.mem_flatMap.mpr ⟨s, hs, hx⟩)
    have hbody := Action.legible_encodeAll hnumbers.1
    have hmoves : ∀ t ∈ s.transitions, t.encode.Legible := fun t ht =>
      Transition.legible_encode fun x hx => hnumbers.2 x (List.mem_flatMap.mpr ⟨t, ht, hx⟩)
    simpa [State.encode] using And.intro hbody hmoves
  simpa [encode] using hstates

/-- **The artifact of a machine is read back as the machine**: the same initial state, the same
states in the same order, repeated ids included, with the same bodies and transitions. -/
theorem Machine.decode_artifact (m : Machine) (hdepth : m.encode.depth ≤ Json.Reader.deepest)
    (hfinite : ∀ x ∈ m.numbers, x.isFinite = true)
    (hread : ∀ x ∈ m.numbers, x.isFinite = true → ReadsBack (.float x)) :
    decoder.decode m.artifact = .ok m := by
  have hm := legible_encode fun x hx => hread x hx (hfinite x hx)
  have hgap : Json.Reader.Gap ['\n'] := List.forall_mem_singleton.mpr rfl
  have htext : m.artifact = .ofList (m.encode.chars .lined 0 ++ ['\n']) :=
    String.ofList_append.symm
  rw [htext]
  exact (reads hm hdepth).decode hdepth Json.Spacing.blank_lined hgap

/-- A machine with guarded blocks, numbers that are no whole numbers, and an id that is repeated. -/
def sampleMachine : Machine where
  initial := startState
  states :=
    [{ id := startState
       body :=
         [.say (some "Ann") "It is \"late\".\n" none, .say none "So it is." (some "ann_1"),
          .setFlag "share" (.number ⟨0x3fb999999999999a⟩) .own,
          .conditional (.flag "gold" .gt (.number ⟨0xc00c000000000000⟩) .global)
            [.modifyFlag "gold" .sub ⟨0x4059000000000000⟩ .global,
             .conditional (.time .night) [.jump "inn"]]]
       transitions := [.conditional (.time .night) "inn", .fallthrough "inn"] },
     { id := "inn", body := [.choice [⟨"Stay", "inn"⟩]], transitions := [.choice "Stay" "inn"] },
     { id := "inn", body := [.unlockDialogue ["dawn"], .finish], transitions := [.finish] }]

theorem sampleMachine_decode_artifact :
    sampleMachine.encode.depth ≤ Json.Reader.deepest
      ∧ (∀ x ∈ sampleMachine.numbers, x.isFinite = true)
      ∧ (∀ x ∈ sampleMachine.numbers, x.isFinite = true → ReadsBack (.float x))
      ∧ Machine.decoder.decode sampleMachine.artifact = .ok sampleMachine := by
  have hdepth : sampleMachine.encode.depth ≤ Json.Reader.deepest := by decide +kernel
  have hfinite : ∀ x ∈ sampleMachine.numbers, x.isFinite = true := by decide +kernel
  have hread : ∀ x ∈ sampleMachine.numbers, x.isFinite = true → ReadsBack (.float x) := by
    decide +kernel
  exact ⟨hdepth, hfinite, hread, Machine.decode_artifact sampleMachine hdepth hfinite hread⟩

end Dialogue
